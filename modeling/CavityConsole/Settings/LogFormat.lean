/-!
# Forms of the log

Log entries are written for a reader or for a program. Typed by an operator, the name of a form may
be in any case of the basic alphabet; in a document it is written exactly.
-/

namespace CavityConsole

/-- A form of the log. -/
inductive LogFormat where
  /-- One line a reader can take in. -/
  | compact
  /-- One JSON object. -/
  | json
deriving DecidableEq, Repr

namespace LogFormat

/-- The name of a form. -/
def name : LogFormat → String
  | .compact => "compact"
  | .json => "json"

/-- The forms under their names. -/
def choice : List (String × LogFormat) := [compact, json].map fun form => (form.name, form)

/-- A name is no form of the log. -/
inductive NameError where
  /-- There is no form of this name. -/
  | unknown
deriving DecidableEq, Repr

/-- The wording of the error. -/
def NameError.message : NameError → String
  | .unknown => "Matching variant not found"

/-- A text with the letters of the basic alphabet in lower case. -/
def lowerCase (text : String) : String := text.map Char.toLower

/-- The form whose name a text is, in any case. -/
def read (text : String) : Except NameError LogFormat :=
  match choice.lookup (lowerCase text) with
  | some form => .ok form
  | none => .error .unknown

end LogFormat

end CavityConsole

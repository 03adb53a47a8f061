import CavityConsole.Decimal.Reading
import CavityConsole.Pattern.WellFormed
import CavityConsole.Text.Bytes
import CavityConsole.Text.Integer

/-!
# Log filters

A log filter is a list of directives with commas between them. A directive is a level, the name of a
part of the program, or such a name with a level behind an equals sign; behind the name, brackets
may hold the name of a span and, between braces, a field with a value or a pattern of values. Here a
filter is only found to be well formed or not.

White space around a directive is left aside while its parts are found, but not while they are cut
out: with so many bytes of white space in front, every part begins and ends so many bytes too early,
and the level at the end reaches to the end of the white space behind.
-/

namespace CavityConsole.LogFilter

/-- Whether a text is a level: nothing, a word in any case, or a number. -/
def isLevel (cs : List Char) : Bool :=
  let text := String.ofList (cs.map Char.toLower)
  ["", "error", "warn", "info", "debug", "trace", "off"].contains text ||
    match Text.readNat (UInt64.size - 1) cs with
    | .ok n => n ≤ 5
    | .error _ => false

/-- Whether a text is a value of a field: a number of any kind, or a pattern. -/
def isFieldValue (cs : List Char) : Bool :=
  (Text.readInt 64 cs).toOption.isSome || (Text.readNat (UInt64.size - 1) cs).toOption.isSome ||
    (Decimal.read .double cs).isSome || Pattern.isWellFormed cs

/-- Whether a text is a field: a name, and a value if there is an equals sign. -/
def isField (cs : List Char) : Bool :=
  let value := (cs.dropWhile (· != '=')).drop 1
  !cs.isEmpty && isFieldValue (value.takeWhile (· != '='))

/-- Whether a character may start a directive. -/
def isStart (c : Char) : Bool :=
  c == '-' || c == ':' || c == '_' || Text.isLetter c || Text.isNumber c

/-! ## Directives -/

/-- The part of a directive that is being read; `start` is where it begins. -/
inductive Part where
  /-- Nothing yet. -/
  | nothing
  /-- A level, or a name. -/
  | name (start : Nat)
  /-- The name of a span. -/
  | span (start : Nat)
  /-- A field. -/
  | field (start : Nat)
  /-- What follows a field. -/
  | behindField
  /-- What follows a span. -/
  | behindSpan
  /-- A level. -/
  | level (start : Nat)
deriving DecidableEq, Repr

/-- The part that is being read behind a character at a number of bytes. -/
def next (directive : List Char) (part : Part) (place : Nat) (c : Char) : Option Part :=
  let cutFrom (start : Nat) : Option (List Char) := Text.cutBytes directive start place
  match part with
  | .nothing =>
    if c = '[' then some (.span (place + 1)) else if isStart c then some (.name place) else none
  | .name start =>
    if c = '=' then (cutFrom start).map fun _ => .level (place + 1)
    else if c = '[' then (cutFrom start).map fun _ => .span (place + 1)
    else some part
  | .span start =>
    if c = ']' then (cutFrom start).map fun _ => .behindSpan
    else if c = '\x7b' then (cutFrom start).map fun _ => .field (place + 1)
    else some part
  | .field start =>
    if c = '\x7d' then
      (cutFrom start).bind fun field => if isField field then some .behindField else none
    else some part
  | .behindField => if c = ']' then some .behindSpan else none
  | .behindSpan => if c = '=' then some (.level (place + 1)) else none
  | .level _ => some part

/-- The part that is being read at the end of characters that begin at a number of bytes. -/
def lastPart (directive : List Char) : (place : Nat) → Part → List Char → Option Part
  | _, part, [] => some part
  | place, part, c :: rest =>
    (next directive part place c).bind fun part =>
      lastPart directive (place + c.utf8Size) part rest

/-- Whether a text is a directive. -/
def isDirective (cs : List Char) : Bool :=
  match lastPart cs 0 .nothing (Text.trim cs) with
  | some (.name start) => (Text.dropBytes cs start).isSome
  | some (.level start) => (Text.dropBytes cs start).any isLevel
  | some .behindSpan => true
  | _ => false

/-- The directives of a filter; empty ones are left aside. -/
def directives (filter : String) : List (List Char) :=
  (filter.toList.splitOn ',').filter (!·.isEmpty)

/-- Whether a filter is well formed. -/
def isValid (filter : String) : Bool := (directives filter).all isDirective

end CavityConsole.LogFilter

import CavityConsole.Decimal.Reading
import CavityConsole.Settings.Layer
import CavityConsole.Text.Blank
import CavityConsole.Text.Bytes
import CavityConsole.Text.Integer
import CavityConsole.Toml.Text

/-!
# Settings in the environment

A variable whose name starts with `PHASER_` gives a setting, whatever the case of its letters. A
point or two underscores in the rest of the name lead into a table; a variable with a nameless step
gives nothing. Of several variables that lead to one setting, or into one table, the last one counts
alone.

What a variable holds is text, and the text decides what it is: a truth value, a number, a list, a
table, something quoted, or, when it is none of these as a whole, itself. A number too large to be
finite is `null`.

The bytes of a quoted text in front of its first escape are counted as characters: so many bytes are
kept as there are characters. Where that leaves part of a character the environment cannot be read
at all.
-/

namespace CavityConsole.Variables

/-! ## Values -/

/-- Why a text is not read as a value. -/
inductive Refusal where
  /-- It does not have the form of one. -/
  | form
  /-- Part of a character would be left of it. -/
  | splitCharacter
deriving DecidableEq, Repr

/-- What was read and the characters that follow it. -/
abbrev Reading (α : Type) := Except Refusal (α × List Char)

/-- White space around the parts of a value. -/
def isGap (c : Char) : Bool := c == ' ' || c == '\t' || c == '\n' || c == '\x0c' || c == '\r'

/-- The text from the next character on that is no white space. -/
def skipGap (cs : List Char) : List Char := cs.dropWhile isGap

/-- Whether a character ends a word. -/
def isSeparator (c : Char) : Bool := [',', '\x7b', '\x7d', '[', ']'].contains c

/-- What a word is that stands for itself or for a number. -/
def word (cs : List Char) : Json :=
  let trimmed := Text.trim cs
  let real : Option Double := if trimmed.contains '.' then Decimal.read .double trimmed else none
  match real with
  | some x => if x.isFinite then .number (.real x) else .null
  | none =>
    match Text.readNat (UInt64.size - 1) trimmed with
    | .ok n => .number (.integer n)
    | .error _ =>
      match Text.readInt 64 trimmed with
      | .ok i => .number (.integer i)
      | .error _ => .string (String.ofList trimmed)

/-- The characters between double quotes, escapes and all, from behind the opening one. -/
def quotedBody : (room : Nat) → (done : List Char) → List Char → Reading (List Char)
  | 0, _, _ => .error .form
  | _ + 1, _, [] => .error .form
  | room + 1, done, c :: rest =>
    if c = '"' then .ok (done.reverse, rest)
    else if c = '\\' then
      match rest with
      | [] => .error .form
      | d :: rest => quotedBody room (d :: c :: done) rest
    else quotedBody room (c :: done) rest

/-- The text that stands between double quotes. -/
def unescaped (body : List Char) : Except Refusal String := do
  let plain := body.takeWhile (· != '\\')
  if !plain.all Toml.isPlain then throw .form
  match body.dropWhile (· != '\\') with
  | [] => return String.ofList body
  | escapes =>
    match Text.takeBytes plain plain.length with
    | none => throw .splitCharacter
    | some kept =>
      match Toml.shortBody '"' (escapes.length + 2) kept.reverse (escapes ++ ['"']) with
      | some (text, _) => return text
      | none => throw .form

/-- A text between double quotes, from behind the opening one. -/
def quoted (cs : List Char) : Except Refusal (String × List Char) := do
  let (body, rest) ← quotedBody (cs.length + 1) [] cs
  return (← unescaped body, rest)

/-- One character between single quotes, from behind the opening one; it stands for itself. -/
def quotedChar : List Char → Reading String
  | c :: '\'' :: rest => .ok (String.singleton c, rest)
  | _ => .error .form

/-- Items with commas between them up to the `close`ing character, behind those that are done in
reverse; a comma may stand behind the last one. -/
def items {α : Type} (item : List Char → Reading α) (close : Char) :
    (room : Nat) → (done : List α) → List Char → Reading (List α)
  | 0, _, _ => .error .form
  | _ + 1, _, [] => .error .form
  | room + 1, done, c :: rest =>
    if c = close then .ok (done.reverse, rest)
    else
      match item (c :: rest) with
      | .error refusal => .error refusal
      | .ok (_, []) => .error .form
      | .ok (a, d :: rest) =>
        if d = ',' then items item close room (a :: done) rest
        else if d = close then .ok ((a :: done).reverse, rest)
        else .error .form

/-- A key of a table and its equals sign. -/
def key (cs : List Char) : Except Refusal (String × List Char) := do
  let (name, rest) ←
    match skipGap cs with
    | '"' :: rest => quoted rest
    | rest =>
      let isPart (c : Char) : Bool := c.isAlphanum || c == '-' || c == '_'
      if (rest.takeWhile isPart).isEmpty then throw .form
      else pure (String.ofList (rest.takeWhile isPart), rest.dropWhile isPart)
  match skipGap rest with
  | '=' :: rest => return (name, rest)
  | _ => throw .form

/-- A member of a table: its key, and its value as `inner` reads it. -/
def member (inner : List Char → Reading Json) (cs : List Char) :
    Except Refusal ((String × Json) × List Char) := do
  let (name, rest) ← key cs
  let (value, rest) ← inner rest
  return ((name, value), rest)

/-- A value and the white space around it, within which `depth` lists and tables may be opened. -/
def value : (depth : Nat) → List Char → Except Refusal (Json × List Char)
  | 0, _ => .error .form
  | depth + 1, cs => do
    let cs := skipGap cs
    let room := cs.length + 1
    let (value, rest) : Json × List Char ←
      match cs with
      | 't' :: 'r' :: 'u' :: 'e' :: rest => pure (.boolean true, rest)
      | 'f' :: 'a' :: 'l' :: 's' :: 'e' :: rest => pure (.boolean false, rest)
      | '\x7b' :: rest =>
        (items (member (value depth)) '\x7d' room [] rest).map fun (written, rest) =>
          (.object (Members.ofList written), rest)
      | '[' :: rest =>
        (items (value depth) ']' room [] rest).map fun (elements, rest) => (.array elements, rest)
      | '"' :: rest => (quoted rest).map fun (s, rest) => (.string s, rest)
      | '\'' :: rest => (quotedChar rest).map fun (s, rest) => (.string s, rest)
      | _ => pure (word (cs.takeWhile (!isSeparator ·)), cs.dropWhile (!isSeparator ·))
    return (value, skipGap rest)

/-- Whether a text is a list without brackets. -/
def isList (cs : List Char) : Bool :=
  cs.contains ',' && !(cs.head?.any fun c => ['[', '\x7b', '"', '\''].contains c)

/-- What the text of a variable is. -/
def read (text : String) : Except Refusal Json :=
  let cs := Text.trim text.toList
  let itself := String.ofList cs
  if isList cs then
    .ok (.array ((cs.splitOn ',').map fun item => .string (String.ofList (Text.trim item))))
  else
    match [("true", true), ("false", false)].lookup (itself.map Char.toLower) with
    | some truth => .ok (.boolean truth)
    | none =>
      match value (cs.length + 1) cs with
      | .ok (value, []) => .ok value
      | .error .splitCharacter => .error .splitCharacter
      | .ok _ | .error .form => .ok (.string itself)

/-! ## Names -/

/-- What the names of all variables start with, in lower case. -/
def commonPart : List Char := "phaser_".toList

/-- A name with a point for every two underscores. -/
def pointed : List Char → List Char
  | '_' :: '_' :: rest => '.' :: pointed rest
  | c :: rest => c :: pointed rest
  | [] => []

/-- The steps of a name, in lower case; every step has a name. -/
def steps? (name : List Char) : Option (List String) :=
  let steps := ((Text.trim (pointed name)).map Char.toLower).splitOn '.'
  if steps.any List.isEmpty then none else some (steps.map String.ofList)

/-- The steps that the name of a variable leads through, if it is one that gives something. -/
def path? (name : String) : Option (List String) :=
  let name := Text.trim name.toList
  if commonPart.isPrefixOf (name.map Char.toLower) then steps? (name.drop commonPart.length)
  else none

/-- A value within tables. -/
def nested (steps : List String) (value : Json) : Json :=
  steps.foldr (fun step inner => .object [(step, inner)]) value

/-- Adds what a variable gives to what others gave before. -/
def add (given : Members) (entry : String × String) : Except Refusal Members :=
  match path? entry.1 with
  | none | some [] => .ok given
  | some (name :: steps) =>
    (read entry.2).map fun value => Members.insert name (nested steps value) given

/-- The layer that an environment gives. -/
def layer (environment : List (String × String)) : Except Refusal Layer :=
  (environment.foldlM add []).map Layer.mk

/-- The variable that names a file. -/
def filePath? (environment : List (String × String)) : Option String :=
  environment.lookup "PHASER_CONFIG_PATH"

end CavityConsole.Variables

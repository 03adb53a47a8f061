import CavityConsole.Json.Basic

/-!
# Compact JSON text

Texts are built from fragments: a string, a number, a list of fragments between brackets, a list of
named fragments between braces. No white space is written. A document is written from the same
fragments as the lines of outgoing commands, only that its members come in the order of their keys.

Of the characters below the space five have a letter of their own and the others are written as
`\u00xx`; quotes and backslashes are preceded by a backslash; everything else stands for itself.
-/

namespace CavityConsole.Json

/-- Numbers of documents: positional from `0.00001` up to sixteen digits before the point. -/
def layout : Decimal.Layout := ⟨-5, 15⟩

/-- A hexadecimal digit, in lower case. -/
def hexDigit (n : Nat) : Char := Nat.digitChar n

/-- One character as it stands between the quotes. -/
def escapeChar (c : Char) : List Char :=
  if c = '"' then ['\\', '"']
  else if c = '\\' then ['\\', '\\']
  else if c = '\x08' then ['\\', 'b']
  else if c = '\x0c' then ['\\', 'f']
  else if c = '\n' then ['\\', 'n']
  else if c = '\r' then ['\\', 'r']
  else if c = '\t' then ['\\', 't']
  else if c.toNat < 0x20 then
    ['\\', 'u', '0', '0', hexDigit (c.toNat / 16), hexDigit (c.toNat % 16)]
  else [c]

/-- A string between quotes. -/
def stringText (s : String) : List Char :=
  '"' :: s.toList.flatMap escapeChar ++ ['"']

/-- A truth value. -/
def booleanText (b : Bool) : List Char :=
  if b then ['t', 'r', 'u', 'e'] else ['f', 'a', 'l', 's', 'e']

/-- The text of `null`. -/
def nullText : List Char := ['n', 'u', 'l', 'l']

/-- A number of a document. -/
def Number.text : Number → List Char
  | .integer i => Decimal.integerText i
  | .real x => layout.text x

/-- Fragments between brackets. -/
def arrayText (elements : List (List Char)) : List Char :=
  '[' :: List.intercalate [','] elements ++ [']']

/-- A member: its key and the fragment of its value. -/
def memberText (key : String) (value : List Char) : List Char := stringText key ++ ':' :: value

/-- Named fragments between braces, in the order given. -/
def objectText (members : List (String × List Char)) : List Char :=
  '\x7b' :: List.intercalate [','] (members.map fun m => memberText m.1 m.2) ++ ['\x7d']

mutual

/-- The compact text of a value. -/
def text : Json → List Char
  | .null => nullText
  | .boolean b => booleanText b
  | .number n => n.text
  | .string s => stringText s
  | .array elements => arrayText (elementTexts [] elements)
  | .object members => objectText (memberTexts [] members)

/-- The texts of a list of values, after those that are done in reverse. -/
def elementTexts (done : List (List Char)) : List Json → List (List Char)
  | [] => done.reverse
  | element :: rest => elementTexts (text element :: done) rest

/-- The texts of a list of members, after those that are done in reverse. -/
def memberTexts (done : List (String × List Char)) :
    List (String × Json) → List (String × List Char)
  | [] => done.reverse
  | (key, value) :: rest => memberTexts ((key, text value) :: done) rest

end

/-- A value as a line of text. -/
def compact (value : Json) : String := String.ofList value.text

instance : ToString Json := ⟨compact⟩

end CavityConsole.Json

namespace CavityConsole

/-- A document as a line of text. -/
def Members.compact (document : Members) : String := Json.compact (.object document)

end CavityConsole

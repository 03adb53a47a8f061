import CavityConsole.Text.Hidden

/-!
# Quoted text in messages

A text shown inside a message stands between double quotes. Quotes and backslashes are preceded by a
backslash, four control characters have a letter of their own, and any other character without a
glyph is written as its code point in hexadecimal.
-/

namespace CavityConsole.Text

/-- The digits of a number in base sixteen, in lower case. -/
def hexText (n : Nat) : List Char := Nat.toDigits 16 n

/-- One character as it stands between the quotes. -/
def quoteChar (c : Char) : List Char :=
  if c = '"' then ['\\', '"']
  else if c = '\\' then ['\\', '\\']
  else if c = '\t' then ['\\', 't']
  else if c = '\n' then ['\\', 'n']
  else if c = '\r' then ['\\', 'r']
  else if c = '\x00' then ['\\', '0']
  else if isHidden c then '\\' :: 'u' :: '{' :: hexText c.toNat ++ ['}']
  else [c]

/-- A text between double quotes. -/
def quoted (s : String) : String :=
  String.ofList ('"' :: s.toList.flatMap quoteChar ++ ['"'])

end CavityConsole.Text

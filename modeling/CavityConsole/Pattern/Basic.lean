import CavityConsole.Json.Token
import CavityConsole.Text.Blank

/-!
# Modes and escapes of patterns

A pattern describes texts. What its characters mean depends on three modes: whether the case of
letters matters, whether characters or bytes are described, and whether white space and comments may
stand anywhere. Further modes change what is described, but not whether a pattern is well formed.

An escape is a character, a class of characters, or a condition on the place in the text. Patterns
know no table of characters, so what would need one is refused: classes of all characters, the case
of characters, and borders of words among them. Bytes are described only so far that they make up
characters.
-/

namespace CavityConsole.Pattern

/-- What the characters of a pattern mean. -/
structure Modes where
  /-- Whether the case of letters does not matter. -/
  ignoresCase : Bool := false
  /-- Whether characters are described, and not bytes. -/
  describesCharacters : Bool := true
  /-- Whether white space and comments may stand anywhere. -/
  isSpaced : Bool := false
deriving DecidableEq, Repr

namespace Modes

/-- Switches the mode of a letter, if there is one. -/
def switch (modes : Modes) (letter : Char) (on : Bool) : Option Modes :=
  if letter = 'i' then some { modes with ignoresCase := on }
  else if letter = 'u' then some { modes with describesCharacters := on }
  else if letter = 'x' then some { modes with isSpaced := on }
  else if ['m', 's', 'U', 'R'].contains letter then some modes
  else none

end Modes

/-- The text behind white space and comments, where they may stand; `room` bounds the comments. -/
def skipSpace (modes : Modes) : (room : Nat) → List Char → List Char
  | 0, cs => cs
  | room + 1, cs =>
    if !modes.isSpaced then cs
    else
      match cs.dropWhile Text.isBlank with
      | '#' :: rest => skipSpace modes room (rest.dropWhile (· != '\n'))
      | other => other

/-- The text from the next character on that counts. -/
def next (modes : Modes) (cs : List Char) : List Char := skipSpace modes cs.length cs

/-- What an escape stands for. -/
inductive Escape where
  /-- A character; `isByte` if it was written as a byte. -/
  | character (c : Char) (isByte : Bool)
  /-- Digits, white space or word characters, or all others. -/
  | class (isNegated : Bool)
  /-- The border of a word, or a place that is none. -/
  | border
  /-- An end of the text. -/
  | ending
deriving DecidableEq, Repr

/-- The characters that mean something without a backslash. -/
def metaCharacters : List Char :=
  ['\\', '.', '+', '*', '?', '(', ')', '|', '[', ']', '\x7b', '\x7d', '^', '$', '#', '&', '-', '~']

/-- Whether a backslash may stand before a character that then stands for itself. -/
def isEscapable (c : Char) : Bool :=
  metaCharacters.contains c || (c.toNat < 0x80 && !c.isAlphanum && c != '<' && c != '>')

/-- A number of so many hexadecimal digits. -/
def hexDigits (modes : Modes) : (count : Nat) → (soFar : Nat) → List Char →
    Option (Nat × List Char)
  | 0, soFar, cs => some (soFar, cs)
  | count + 1, soFar, cs =>
    match next modes cs with
    | [] => none
    | c :: rest =>
      (Json.hexValue? c).bind fun digit => hexDigits modes count (16 * soFar + digit) rest

/-- A character by its number of so many hexadecimal digits. -/
def numbered (modes : Modes) (count : Nat) (cs : List Char) : Option (Escape × List Char) := do
  let (code, rest) ← hexDigits modes count 0 cs
  if code.isValidChar then return (.character (Char.ofNat code) (count == 2), rest) else none

/-- The characters with a letter of their own. -/
def letters : List (Char × Char) :=
  [('a', '\x07'), ('f', '\x0c'), ('t', '\t'), ('n', '\n'), ('r', '\r'), ('v', '\x0b')]

/-- An escape, from behind its backslash. -/
def escape (modes : Modes) (cs : List Char) : Option (Escape × List Char) :=
  match cs with
  | [] => none
  | 'x' :: rest => numbered modes 2 rest
  | 'u' :: rest => numbered modes 4 rest
  | 'U' :: rest => numbered modes 8 rest
  | c :: rest =>
    if isEscapable c then some (.character c false, rest)
    else if ['d', 's', 'w'].contains c then some (.class false, rest)
    else if ['D', 'S', 'W'].contains c then some (.class true, rest)
    else if ['b', 'B', '<', '>'].contains c then some (.border, rest)
    else if ['A', 'z'].contains c then some (.ending, rest)
    else (letters.lookup c).map fun character => (.character character false, rest)

end CavityConsole.Pattern

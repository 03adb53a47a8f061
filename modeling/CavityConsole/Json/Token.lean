import CavityConsole.Decimal.Reading
import CavityConsole.Decimal.Scaled
import CavityConsole.Json.Basic
import CavityConsole.Json.Fault
import CavityConsole.Text.Integer

/-!
# The tokens of a JSON text

Each reader takes the characters from a place of the text on and gives what it read with the
characters that follow it, or the first problem. Readers that work through a text of any length
carry a `room`, a bound on the steps they may still take; the length of the text is always enough.
-/

namespace CavityConsole.Json

/-- What a reader gives: what it read and what is left of the text, or the first problem. -/
abbrev Scan (α : Type) := Except Fault (α × List Char)

/-- White space between tokens. -/
def isBlank (c : Char) : Bool := c == ' ' || c == '\t' || c == '\n' || c == '\r'

/-- The text from the next token on. -/
def skipBlank (cs : List Char) : List Char := cs.dropWhile isBlank

/-- The rest of a literal word. -/
def literal : (word : List Char) → List Char → Except Fault (List Char)
  | [], cs => .ok cs
  | _ :: _, [] => .error .endInValue
  | w :: word, c :: cs => if w = c then literal word cs else .error .wordExpected

/-- The colon between a key and its value. -/
def colon (cs : List Char) : Except Fault (List Char) :=
  match skipBlank cs with
  | [] => .error .endInObject
  | c :: rest => if c = ':' then .ok rest else .error .colonExpected

/-! ## Strings -/

/-- The value of a hexadecimal digit of either case. -/
def hexValue? (c : Char) : Option Nat :=
  if '0' ≤ c ∧ c ≤ '9' then some (c.toNat - '0'.toNat)
  else if 'a' ≤ c ∧ c ≤ 'f' then some (c.toNat - 'a'.toNat + 10)
  else if 'A' ≤ c ∧ c ≤ 'F' then some (c.toNat - 'A'.toNat + 10)
  else none

/-- The number of four hexadecimal digits. The text must have four more bytes; what they are is
looked at only then. -/
def hexEscape : List Char → Scan Nat
  | a :: b :: c :: d :: rest =>
    match hexValue? a, hexValue? b, hexValue? c, hexValue? d with
    | some a, some b, some c, some d => .ok (((a * 16 + b) * 16 + c) * 16 + d, rest)
    | _, _, _, _ => .error .invalidEscape
  | few =>
    if (String.ofList few).utf8ByteSize < 4 then .error .endInString else .error .invalidEscape

/-- Whether a number is the first half of a surrogate pair. -/
def isHighSurrogate (n : Nat) : Bool := 0xD800 ≤ n && n ≤ 0xDBFF

/-- Whether a number is the second half of a surrogate pair. -/
def isLowSurrogate (n : Nat) : Bool := 0xDC00 ≤ n && n ≤ 0xDFFF

/-- The character of a surrogate pair. -/
def surrogatePair (high low : Nat) : Char :=
  Char.ofNat (0x10000 + (high - 0xD800) * 0x400 + (low - 0xDC00))

/-- The second half of a surrogate pair, an escape of its own. -/
def lowEscape (high : Nat) : List Char → Scan Char
  | [] => .error .endInString
  | '\\' :: [] => .error .endInString
  | '\\' :: 'u' :: rest =>
    match hexEscape rest with
    | .error fault => .error fault
    | .ok (low, rest) =>
      if isLowSurrogate low then .ok (surrogatePair high low, rest) else .error .loneSurrogate
  | _ => .error .unpairedSurrogate

/-- The character of an escape by number. -/
def unicodeEscape (cs : List Char) : Scan Char :=
  match hexEscape cs with
  | .error fault => .error fault
  | .ok (n, rest) =>
    if isLowSurrogate n then .error .loneSurrogate
    else if isHighSurrogate n then lowEscape n rest
    else .ok (Char.ofNat n, rest)

/-- The character that an escape stands for, from behind its backslash. -/
def escape : List Char → Scan Char
  | [] => .error .endInString
  | '"' :: rest => .ok ('"', rest)
  | '\\' :: rest => .ok ('\\', rest)
  | '/' :: rest => .ok ('/', rest)
  | 'b' :: rest => .ok ('\x08', rest)
  | 'f' :: rest => .ok ('\x0c', rest)
  | 'n' :: rest => .ok ('\n', rest)
  | 'r' :: rest => .ok ('\r', rest)
  | 't' :: rest => .ok ('\t', rest)
  | 'u' :: rest => unicodeEscape rest
  | _ :: _ => .error .invalidEscape

/-- A string from behind its opening quote, after the characters that are done in reverse. -/
def stringBody : (room : Nat) → (done : List Char) → List Char → Scan String
  | 0, _, _ => .error .endInString
  | _ + 1, _, [] => .error .endInString
  | room + 1, done, c :: rest =>
    if c = '"' then .ok (String.ofList done.reverse, rest)
    else if c = '\\' then
      match escape rest with
      | .error fault => .error fault
      | .ok (e, rest) => stringBody room (e :: done) rest
    else if c.toNat < 0x20 then .error .controlCharacter
    else stringBody room (c :: done) rest

/-! ## Numbers -/

/-- Significands are kept below this bound. -/
def significandBound : Nat := UInt64.size

/-- Appends digits to a significand while it stays below the bound; also counts the digits that
found no place. -/
def gather : (significand : Nat) → (digits : List Char) → Nat × Nat
  | significand, [] => (significand, 0)
  | significand, c :: rest =>
    let next := 10 * significand + Text.digitValue c
    if next < significandBound then gather next rest else (significand, rest.length + 1)

/-- The number `significand * 10 ^ exponent` of the given sign. -/
def real (negative : Bool) (significand : Nat) (exponent : Int) : Except Fault Number :=
  match Decimal.scaled significand exponent with
  | none => .error .numberOutOfRange
  | some x => .ok (.real (if negative then -x else x))

/-- A number that ends behind its whole digits. -/
def wholeNumber (negative : Bool) (significand dropped : Nat) : Except Fault Number :=
  if 0 < dropped then real negative significand dropped
  else if !negative then .ok (.integer significand)
  else if 0 < significand ∧ significand ≤ UInt64.size / 2 then .ok (.integer (-(significand : Int)))
  else real true significand 0

/-- The exponent of a number, from behind its `e`. -/
def exponentPart (negative : Bool) (significand : Nat) (exponent : Int) (cs : List Char) :
    Scan Number :=
  let (down, cs) := Decimal.takeSign cs
  match cs with
  | [] => .error .endInValue
  | c :: _ =>
    if c.isDigit then
      let written := Nat.ofDigitChars 10 (cs.takeWhile Char.isDigit) 0
      let shift : Int := if down then -(written : Int) else written
      (real negative significand (exponent + shift)).map fun n => (n, cs.dropWhile Char.isDigit)
    else .error .invalidNumber

/-- Whether a character starts an exponent. -/
def isExponentMark (c : Char) : Bool := c == 'e' || c == 'E'

/-- The fraction of a number, from behind its point, and the exponent that may follow it. -/
def fractionPart (negative : Bool) (significand dropped : Nat) (cs : List Char) : Scan Number :=
  match cs with
  | [] => .error .endInValue
  | c :: _ =>
    if c.isDigit then
      let digits := cs.takeWhile Char.isDigit
      let (significand, unplaced) := gather significand digits
      let exponent : Int := dropped - (digits.length - unplaced : Nat)
      match cs.dropWhile Char.isDigit with
      | [] => (real negative significand exponent).map fun n => (n, [])
      | e :: rest =>
        if isExponentMark e then exponentPart negative significand exponent rest
        else (real negative significand exponent).map fun n => (n, e :: rest)
    else .error .invalidNumber

/-- A number from behind its whole digits. -/
def numberTail (negative : Bool) (significand dropped : Nat) : List Char → Scan Number
  | [] => (wholeNumber negative significand dropped).map fun n => (n, [])
  | c :: rest =>
    if c = '.' then fractionPart negative significand dropped rest
    else if isExponentMark c then exponentPart negative significand dropped rest
    else (wholeNumber negative significand dropped).map fun n => (n, c :: rest)

/-- A number from behind its sign. A zero in front of another digit is refused. -/
def numberBody (negative : Bool) (cs : List Char) : Scan Number :=
  match cs with
  | [] => .error .endInValue
  | c :: rest =>
    if c = '0' then
      if (rest.head?.map Char.isDigit).getD false then .error .invalidNumber
      else numberTail negative 0 0 rest
    else if c.isDigit then
      let (significand, dropped) := gather 0 (cs.takeWhile Char.isDigit)
      numberTail negative significand dropped (cs.dropWhile Char.isDigit)
    else .error .invalidNumber

end CavityConsole.Json

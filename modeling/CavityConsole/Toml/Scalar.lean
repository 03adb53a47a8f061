import CavityConsole.Decimal.Reading
import CavityConsole.Json.Token
import CavityConsole.Time.Timestamp
import CavityConsole.Toml.Text

/-!
# Values of TOML files without quotes

Truth values, numbers, dates and times are words without quotes. Underscores may stand between the
digits of a number. A whole number has to fit 64 bits with a sign; it may also be written in base
sixteen, eight or two. A number that is not finite is `null`; it has to be written as such, and one
that is only too large is refused. A date or a time is an object around its text.
-/

namespace CavityConsole.Toml

/-- Whether a character may stand in a word without quotes. -/
def isWordChar (c : Char) : Bool :=
  c.isAlphanum || c == '+' || c == '-' || c == '_' || c == '.' || c == ':'

/-- Digits without the underscores between them; `inside` says that a digit stands in front. -/
def ungrouped (isDigit : Char → Bool) : (inside : Bool) → List Char → Option (List Char)
  | inside, [] => if inside then some [] else none
  | inside, c :: rest =>
    if c = '_' then if inside then ungrouped isDigit false rest else none
    else if isDigit c then (ungrouped isDigit true rest).map (c :: ·)
    else none

/-- The value of digits in a base, with underscores between them. -/
def based (base : Nat) (cs : List Char) : Option Nat :=
  (ungrouped (fun c => (Json.hexValue? c).any (· < base)) false cs).map fun digits =>
    digits.foldl (fun n c => base * n + (Json.hexValue? c).getD 0) 0

/-- Decimal digits in front of which no zero stands. -/
def wholeDigits (cs : List Char) : Option (List Char) :=
  (ungrouped Char.isDigit false cs).bind fun digits =>
    if 1 < digits.length ∧ digits.head? = some '0' then none else some digits

/-- A whole number. -/
def integer (word : List Char) : Option Int :=
  let value : Option Int :=
    match word with
    | '0' :: 'x' :: digits => (based 16 digits).map Int.ofNat
    | '0' :: 'o' :: digits => (based 8 digits).map Int.ofNat
    | '0' :: 'b' :: digits => (based 2 digits).map Int.ofNat
    | _ =>
      let (negative, digits) := Decimal.takeSign word
      (wholeDigits digits).map fun digits =>
        let n : Int := Nat.ofDigitChars 10 digits 0
        if negative then -n else n
  value.filter fun i => Int64.minValue.toInt ≤ i ∧ i ≤ Int64.maxValue.toInt

/-- The digits of an exponent, its sign included. -/
def exponentDigits (cs : List Char) : Option (List Char) :=
  match cs with
  | '+' :: digits => ungrouped Char.isDigit false digits
  | '-' :: digits => (ungrouped Char.isDigit false digits).map ('-' :: ·)
  | digits => ungrouped Char.isDigit false digits

/-- A number with a fraction or an exponent, without underscores and without its sign. -/
def realDigits (cs : List Char) : Option (List Char) := do
  let isExponent (c : Char) : Bool := c == 'e' || c == 'E'
  let significand := cs.takeWhile (!isExponent ·)
  let whole ← wholeDigits (significand.takeWhile (· != '.'))
  let fraction ←
    match significand.dropWhile (· != '.') with
    | [] => some []
    | _ :: digits => (ungrouped Char.isDigit false digits).map ('.' :: ·)
  let exponent ←
    match cs.dropWhile (!isExponent ·) with
    | [] => some []
    | _ :: digits => (exponentDigits digits).map ('e' :: ·)
  if fraction.isEmpty ∧ exponent.isEmpty then none
  return whole ++ fraction ++ exponent

/-- A number that is not whole, or not finite. -/
def real (word : List Char) : Option Json := do
  let (negative, cs) := Decimal.takeSign word
  if cs = ['i', 'n', 'f'] ∨ cs = ['n', 'a', 'n'] then return .null
  let x : Double ← Decimal.read .double (← realDigits cs)
  if !x.isFinite then none
  return .number (.real { x with negative })

/-- Whether a text is a time of day. -/
def isTime (cs : List Char) : Bool :=
  match Timestamp.reading none cs with
  | some (r, []) => r.hour < 24 && r.minute < 60 && r.second ≤ 60
  | _ => false

/-- Whether a text is a time of day with an offset or without one. -/
def isZonedTime (cs : List Char) : Bool :=
  match Timestamp.reading none cs with
  | some (r, rest) =>
    r.hour < 24 && r.minute < 60 && r.second ≤ 60 &&
      (rest.isEmpty || (Timestamp.zone rest).isSome)
  | none => false

/-- What follows a date. -/
def behindDate (cs : List Char) : Option (List Char) := do
  let (year, cs) ← Timestamp.number 4 cs
  let ((month, day), cs) ← Timestamp.monthAndDay cs
  let _ ← Date.ofNumbers? year month day
  return cs

/-- Whether a word is a date, a time of day, or both. -/
def isMoment (word : List Char) : Bool :=
  isTime word ||
    match behindDate word with
    | some [] => true
    | some (c :: rest) => (c == 'T' || c == 't' || c == ' ') && isZonedTime rest
    | none => false

/-- The word that a value without quotes is: behind a date, a space may stand before the time. -/
def word (cs : List Char) : List Char × List Char :=
  let first := cs.takeWhile isWordChar
  match behindDate first, cs.dropWhile isWordChar with
  | some [], ' ' :: rest =>
    if (rest.head?.map Char.isDigit).getD false then
      (first ++ ' ' :: rest.takeWhile isWordChar, rest.dropWhile isWordChar)
    else (first, ' ' :: rest)
  | _, rest => (first, rest)

/-- A date or a time as a value. -/
def moment (word : List Char) : Json := .object [("moment", .string (String.ofList word))]

/-- What a value without quotes is. -/
def scalar (cs : List Char) : Option (Json × List Char) :=
  let (text, rest) := word cs
  let value : Option Json :=
    if text = ['t', 'r', 'u', 'e'] then some (.boolean true)
    else if text = ['f', 'a', 'l', 's', 'e'] then some (.boolean false)
    else
      ((integer text).map fun i => .number (.integer i)).or <| (real text).or <|
        if isMoment text then some (moment text) else none
  value.map fun value => (value, rest)

end CavityConsole.Toml

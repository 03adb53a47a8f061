import CavityConsole.Binary.Rounding

/-!
# Reading decimal numbers typed by an operator

A number is an optional sign followed by `inf`, `infinity` or `nan` in letters of either case, or
by digits with an optional point among them and an optional exponent. At least one digit must stand
on one side of the point, and an exponent needs a digit of its own. The value is the nearest one of
the format, whatever the number of digits.
-/

namespace CavityConsole.Decimal

/-- A sign, when one stands in front, and what follows it. -/
def takeSign : List Char → Bool × List Char
  | '-' :: rest => (true, rest)
  | '+' :: rest => (false, rest)
  | rest => (false, rest)

/-- The exponent behind a significand: nothing at all, or `e` with a whole number. -/
def readExponent : List Char → Option Int
  | [] => some 0
  | c :: rest =>
    if c = 'e' ∨ c = 'E' then
      let (negative, digits) := takeSign rest
      if digits.isEmpty ∨ !digits.all Char.isDigit then none
      else
        let written : Int := Nat.ofDigitChars 10 digits 0
        some (if negative then -written else written)
    else none

/-- Digits with an optional point and exponent, as significand and power of ten. -/
def readUnsigned (cs : List Char) : Option (Nat × Int) :=
  let whole := cs.takeWhile Char.isDigit
  let (fraction, rest) :=
    match cs.dropWhile Char.isDigit with
    | '.' :: tail => (tail.takeWhile Char.isDigit, tail.dropWhile Char.isDigit)
    | tail => ([], tail)
  if whole.isEmpty ∧ fraction.isEmpty then none
  else (readExponent rest).map fun exponent =>
    (Nat.ofDigitChars 10 (whole ++ fraction) 0, exponent - fraction.length)

/-- A decimal number as a value of a binary format. -/
def read (f : Binary.Format) (text : List Char) : Option (Binary f) :=
  let (negative, cs) := takeSign text
  match readUnsigned cs with
  | some (significand, exponent) => some (Binary.ofDecimal negative significand exponent)
  | none =>
    let word := cs.map Char.toLower
    if word = ['i', 'n', 'f'] ∨ word = ['i', 'n', 'f', 'i', 'n', 'i', 't', 'y'] then
      some (Binary.infinite negative)
    else if word = ['n', 'a', 'n'] then some (Binary.notANumber negative)
    else none

end CavityConsole.Decimal

import CavityConsole.Binary.Basic

/-!
# The shortest decimal that reads back

A finite non-zero binary value is the nearest value of its format to a whole interval of numbers:
from halfway to its lower neighbour up to halfway to its upper one, the ends included exactly when
its code is even. Among the decimals in that interval `Decimal.shortest` takes one with the fewest
digits, of those the one nearest to the value itself, and of two equally near ones the one with an
even last digit.

Only two decimals with a given number of digits need testing, the neighbours of the value on the
grid of that many digits. All tests are exact comparisons of natural numbers.
-/

namespace CavityConsole

/-- The positive number `digits * 10 ^ exponent`. -/
structure Decimal where
  /-- The digits, read as one number. -/
  digits : Nat
  /-- The power of ten of the last digit. -/
  exponent : Int
deriving DecidableEq, Repr

namespace Decimal

/-- The decimal digits of a natural number, most significant first. -/
def digitText (n : Nat) : List Char := Nat.toDigits 10 n

/-- How many digits a natural number has. -/
def digitCount (n : Nat) : Nat := (digitText n).length

/-- The exponent of the first digit: the number is `d.ddd * 10 ^ scientific`. -/
def scientific (d : Decimal) : Int := d.exponent + (digitCount d.digits - 1 : Nat)

/-- The same number without zeros at the end of its digits, at most `room` of them. -/
def trim : (room : Nat) → Decimal → Decimal
  | 0, d => d
  | room + 1, d =>
    if d.digits ≠ 0 ∧ d.digits % 10 = 0 then trim room ⟨d.digits / 10, d.exponent + 1⟩ else d

/-! ## The interval of a binary value -/

/-- The numbers that read as one binary value, with the value itself: all three in units of half a
least unit, `2 ^ (scale + 1)` of which make one. -/
structure Interval where
  /-- Halfway to the lower neighbour. -/
  low : Nat
  /-- The value. -/
  middle : Nat
  /-- Halfway to the upper neighbour. -/
  high : Nat
  /-- Whether the two ends read as the value too. -/
  closed : Bool
  /-- How many of the units make one. -/
  one : Nat

/-- The interval of a positive code. -/
def Interval.ofCode (f : Binary.Format) (code : Nat) : Interval where
  low := f.units (code - 1) + f.units code
  middle := 2 * f.units code
  high := f.units code + f.units (code + 1)
  closed := code % 2 == 0
  one := Nat.pow 2 (f.scale + 1)

/-- Whether a decimal lies in the interval. -/
def Interval.contains (i : Interval) (d : Decimal) : Bool :=
  let point := d.digits * Nat.pow 10 d.exponent.toNat * i.one
  let step := Nat.pow 10 (-d.exponent).toNat
  if i.closed then i.low * step ≤ point ∧ point ≤ i.high * step
  else i.low * step < point ∧ point < i.high * step

/-- The power of ten at or below `num / den`. -/
def floorLog10 (num den : Nat) : Int :=
  if den ≤ num then (digitCount (num / den) - 1 : Nat)
  else -(digitCount ((den - 1) / num) : Int)

/-- The neighbours of the value on the grid of multiples of `10 ^ exponent`, the nearer one first;
of two equally near ones the one with an even last digit is first. -/
def Interval.neighbours (i : Interval) (exponent : Int) : Decimal × Decimal :=
  let value := i.middle * Nat.pow 10 (-exponent).toNat
  let step := Nat.pow 10 exponent.toNat * i.one
  let below := value / step
  let lower : Decimal := ⟨below, exponent⟩
  let upper : Decimal := ⟨below + 1, exponent⟩
  let halfway := (2 * below + 1) * step
  if 2 * value < halfway then (lower, upper)
  else if halfway < 2 * value then (upper, lower)
  else if below % 2 = 0 then (lower, upper)
  else (upper, lower)

/-- The decimal of the grid of multiples of `10 ^ exponent` that stands for the value, if one
does. -/
def Interval.onGrid (i : Interval) (exponent : Int) : Option Decimal :=
  let (nearer, farther) := i.neighbours exponent
  if i.contains nearer then some nearer
  else if i.contains farther then some farther
  else none

/-- The first decimal found on ever finer grids, starting with one digit. -/
def Interval.search (i : Interval) (exponent : Int) : (room : Nat) → Decimal
  | 0 => (i.neighbours exponent).1
  | room + 1 => (i.onGrid exponent).getD (i.search (exponent - 1) room)

/-- The shortest decimal of a positive code. As many digits as the format has bits always suffice
to tell its magnitudes apart, so the search is given that many grids. -/
def shortest (f : Binary.Format) (code : Nat) : Decimal :=
  let interval := Interval.ofCode f code
  let found := interval.search (floorLog10 interval.middle interval.one) f.precision
  trim (digitCount found.digits) found

end Decimal

end CavityConsole

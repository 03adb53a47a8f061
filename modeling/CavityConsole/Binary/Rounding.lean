import CavityConsole.Binary.Basic

/-!
# Rounding to a binary format

An exact non-negative ratio is rounded to the nearest magnitude of a format, a tie going to the
even code; what lies beyond the largest finite magnitude becomes infinity. Widening, narrowing and
the two arithmetic operations the library needs are this one rounding applied to an exact result.
-/

namespace CavityConsole

namespace Binary

/-- The whole number nearest to `num / den`, of two equally near ones the even one. -/
def divNearestEven (num den : Nat) : Nat :=
  let quotient := num / den
  let remainder := num % den
  if 2 * remainder < den then quotient
  else if den < 2 * remainder then quotient + 1
  else quotient + quotient % 2

/-- The code nearest to `num / den` least units. The ratio is scaled down until its whole part has
`precision` bits; a carry out of the significand moves to the next binade by itself, because codes
of neighbouring binades are neighbours. -/
def Format.nearestCode (f : Format) (num den : Nat) : Nat :=
  let shift := Nat.log2 (num / den) - (f.precision - 1)
  shift * f.binade + divNearestEven num (den * Nat.pow 2 shift)

variable {f : Format}

/-- The value nearest to `num / den`. -/
def ofRatio (negative : Bool) (num den : Nat) : Binary f where
  negative := negative
  code := min (f.nearestCode (num * Nat.pow 2 f.scale) den) f.infinity
  code_lt := Nat.lt_of_le_of_lt (Nat.min_le_right _ _) f.infinity_lt_codes

/-- The value nearest to a natural number. -/
def ofNat (n : Nat) : Binary f := ofRatio false n 1

/-- The value nearest to an integer. -/
def ofInt (i : Int) : Binary f := ofRatio (i < 0) i.natAbs 1

/-- The value in another format; a finite value is rounded there, the others keep their kind. -/
def convert (g : Format) (x : Binary f) : Binary g :=
  if x.isFinite then ofRatio x.negative x.units (Nat.pow 2 f.scale)
  else if x.isNaN then notANumber x.negative
  else infinite x.negative

/-- The rounded product of two finite values. -/
def mul (x y : Binary f) : Binary f :=
  ofRatio (x.negative != y.negative) (x.units * y.units) (Nat.pow 2 (2 * f.scale))

/-- The rounded quotient of two finite values, the second not zero. -/
def div (x y : Binary f) : Binary f :=
  ofRatio (x.negative != y.negative) x.units y.units

/-- The value nearest to `significand * 10 ^ exponent`. Exponents so large or small that the
outcome is settled by the number of digits are not multiplied out. -/
def ofDecimal (negative : Bool) (significand : Nat) (exponent : Int) : Binary f :=
  let magnitude : Int := (Nat.toDigits 10 significand).length + exponent
  if significand = 0 then zero negative
  else if (Nat.pow 2 f.exponentBits : Int) < magnitude then infinite negative
  else if magnitude < -(f.scale + 1 : Int) then zero negative
  else ofRatio negative (significand * Nat.pow 10 exponent.toNat) (Nat.pow 10 (-exponent).toNat)

end Binary

end CavityConsole

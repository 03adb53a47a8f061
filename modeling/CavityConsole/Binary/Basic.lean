/-!
# Binary floating-point values

A binary interchange format has `precision` significant bits and `exponentBits` bits of exponent.
A value is a sign and a *magnitude code*: the non-negative magnitudes of a format, in increasing
order, are numbered from zero upwards, then comes infinity, then the not-a-number codes. The code
is exactly the bit pattern without its sign bit, so two values are equal as terms when their bits
are, and the order of the codes is the order of the magnitudes.

The least positive magnitude is `2 ^ -scale`. Every finite magnitude is a whole number of these
least units, given by `Format.units`; all arithmetic of the library on such values is integer
arithmetic on units.
-/

namespace CavityConsole

/-- The shape of a binary interchange format. -/
structure Binary.Format where
  /-- Bits of a significand, its leading bit included. -/
  precision : Nat
  /-- Bits of the exponent field. -/
  exponentBits : Nat
  /-- There is at least one bit behind the leading one. -/
  two_le_precision : 2 ≤ precision := by decide
  /-- The exponent field tells normal magnitudes, subnormal ones and infinity apart. -/
  two_le_exponentBits : 2 ≤ exponentBits := by decide

namespace Binary.Format

/-- The 32-bit format. -/
def single : Format where
  precision := 24
  exponentBits := 8

/-- The 64-bit format. -/
def double : Format where
  precision := 53
  exponentBits := 11

/-- How many magnitudes share one exponent. -/
def binade (f : Format) : Nat := Nat.pow 2 (f.precision - 1)

/-- One is `2 ^ scale` least units. -/
def scale (f : Format) : Nat := Nat.pow 2 (f.exponentBits - 1) - 2 + (f.precision - 1)

/-- How many codes there are for one sign. -/
def codes (f : Format) : Nat := Nat.pow 2 f.exponentBits * f.binade

/-- The code of infinity, one above the largest finite magnitude. -/
def infinity (f : Format) : Nat := (Nat.pow 2 f.exponentBits - 1) * f.binade

/-- The code written for a result that is no number: the first fraction bit alone is set. -/
def notANumber (f : Format) : Nat := f.infinity + f.binade / 2

/-- The magnitude of a code, counted in least units: `code = (k - 1) * binade + m` stands for
`m * 2 ^ (k - 1)`, and in the subnormal binade `k = 0` for `code` itself. -/
def units (f : Format) (code : Nat) : Nat :=
  let shift := code / f.binade - 1
  (code - shift * f.binade) * Nat.pow 2 shift

theorem binade_pos (f : Format) : 0 < f.binade := Nat.two_pow_pos _

theorem infinity_lt_codes (f : Format) : f.infinity < f.codes := by
  have hb := f.binade_pos
  have he : 0 < Nat.pow 2 f.exponentBits := Nat.two_pow_pos _
  exact (Nat.mul_lt_mul_right hb).2 (by omega)

theorem notANumber_lt_codes (f : Format) : f.notANumber < f.codes := by
  have hb := f.binade_pos
  have he : 0 < Nat.pow 2 f.exponentBits := Nat.two_pow_pos _
  have hsum : f.codes = f.infinity + f.binade := by
    unfold codes infinity
    rw [Nat.sub_mul, Nat.one_mul, Nat.sub_add_cancel (Nat.le_mul_of_pos_left _ he)]
  rw [hsum]
  unfold notANumber
  omega

end Binary.Format

/-- A value of a binary format: a sign and a magnitude code. -/
structure Binary (f : Binary.Format) where
  /-- The sign bit. -/
  negative : Bool
  /-- The position of the magnitude among the magnitudes of the format. -/
  code : Nat
  /-- The code fits the format. -/
  code_lt : code < f.codes
deriving DecidableEq

/-- A 32-bit value. -/
abbrev Single := Binary Binary.Format.single

/-- A 64-bit value. -/
abbrev Double := Binary Binary.Format.double

namespace Binary

variable {f : Format}

/-- The value is neither infinite nor a not-a-number. -/
def isFinite (x : Binary f) : Bool := x.code < f.infinity

/-- The value is a not-a-number. -/
def isNaN (x : Binary f) : Bool := f.infinity < x.code

/-- The value is one of the two zeros. -/
def isZero (x : Binary f) : Bool := x.code == 0

/-- The magnitude in least units; meaningful for finite values. -/
def units (x : Binary f) : Nat := f.units x.code

/-- The value with its sign turned. -/
def neg (x : Binary f) : Binary f := { x with negative := !x.negative }

instance : Neg (Binary f) := ⟨neg⟩

/-- Zero of the given sign. -/
def zero (negative : Bool) : Binary f where
  negative := negative
  code := 0
  code_lt := Nat.lt_of_le_of_lt (Nat.zero_le _) f.infinity_lt_codes

/-- Infinity of the given sign. -/
def infinite (negative : Bool) : Binary f where
  negative := negative
  code := f.infinity
  code_lt := f.infinity_lt_codes

/-- The not-a-number of the given sign. -/
def notANumber (negative : Bool) : Binary f where
  negative := negative
  code := f.notANumber
  code_lt := f.notANumber_lt_codes

/-- The bit pattern: the sign bit stands in front of the code. -/
def bits (x : Binary f) : Nat := (if x.negative then f.codes else 0) + x.code

/-! ## Comparing -/

/-- Equality of numbers: the two zeros are equal, and a not-a-number equals nothing. -/
def sameNumber (x y : Binary f) : Bool :=
  !x.isNaN && !y.isNaN && (x == y || (x.isZero && y.isZero))

/-- A number as an integer that grows with it; both zeros are `0`. -/
def rank (x : Binary f) : Int := if x.negative then -(x.code : Int) else x.code

/-- Order of numbers; a not-a-number is in no relation. -/
def le (x y : Binary f) : Bool := !x.isNaN && !y.isNaN && x.rank ≤ y.rank

end Binary

end CavityConsole

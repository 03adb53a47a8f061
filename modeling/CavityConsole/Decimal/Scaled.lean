import CavityConsole.Binary.Rounding

/-!
# Scaled reading of number tokens

The numbers of inbound documents are read in two roundings rather than one: the significand, cut to
the digits that fit a 64-bit word, is rounded to a 64-bit value, and that value is multiplied or
divided by the rounded power of ten. The outcome may differ from the nearest value in its last bit.

Powers of ten beyond `10 ^ 308` are no 64-bit values. Dividing by a larger one goes through
`10 ^ 308` first; multiplying by a larger one is an overflow, unless the significand is zero.
-/

namespace CavityConsole.Decimal

/-- The largest power of ten below infinity. -/
def largestPower : Nat := 308

/-- The 64-bit value nearest to a power of ten. -/
def power (exponent : Nat) : Double := Binary.ofRatio false (Nat.pow 10 exponent) 1

/-- Divides by `10 ^ exponent`, in steps of `10 ^ 308` while the exponent is larger than that. -/
def scaleDown (value : Double) (exponent : Nat) : Double :=
  if exponent ≤ largestPower then value.div (power exponent)
  else if value.isZero then value
  else scaleDown (value.div (power largestPower)) (exponent - largestPower)
termination_by exponent
decreasing_by all_goals (unfold largestPower at *; omega)

/-- The magnitude written `significand * 10 ^ exponent`, or nothing when it is too large for a
64-bit value. -/
def scaled (significand : Nat) (exponent : Int) : Option Double :=
  let value : Double := Binary.ofNat significand
  if exponent < 0 then some (scaleDown value exponent.natAbs)
  else if exponent.toNat ≤ largestPower then
    let product := value.mul (power exponent.toNat)
    if product.isFinite then some product else none
  else if value.isZero then some value
  else none

end CavityConsole.Decimal

import CavityConsole.Proofs.Decimal.Reread

/-!
# Scaled reading is off by little

A significand of 64 bits and a power of ten are read in two to four roundings: the significand, the
power, and one product or quotient, or two quotients where the power is too small for one. All
roundings but the last leave a number that is off by a tiny part of the decimal, for all of them
keep their bits; of a decimal below `10 ^ -308` only the first quotient may have lost one. The last
rounding may be to any of the least magnitudes, and is off by half a unit in the last place, or half
a least unit (`ReadAs`).

**The law** (`exists_scaled`): a decimal is read like that, unless it is scaled up beyond the finite
values; that happens only next to infinity (`isFinite_product`). Whatever the digits and the power,
no infinite value is read (`isFinite_scaled`).
-/

namespace CavityConsole.Decimal

open Binary

/-- A number is read as a value: the value is what a number next to it is rounded to. -/
structure ReadAs (exact : ℚ) (y : Double) : Prop where
  positive : y.negative = false
  finite : y.isFinite = true
  rounded : ∃ near, Within (8 / 2 ^ 53) exact near ∧
    |near - y.amount| ≤ y.amount / 2 ^ 53 + 1 / 2 ^ 1075

/-! ## Significands and powers -/

theorem within_ofNat {n : Nat} (hpos : 0 < n) (h : n < 2 ^ 64) :
    Within (1 / 2 ^ 53) n (ofNat n : Double).amount := by
  have hone : (1 : ℚ) ≤ n := by exact_mod_cast hpos
  have hratio : (n : ℚ) / (1 : Nat) = n := by rw [Nat.cast_one, div_one]
  have hnormal : Format.double.value Format.double.binade ≤ (n : ℚ) / (1 : Nat) := by
    rw [hratio]
    exact leastNormal_le.trans (le_trans (by norm_num) hone)
  have hwithin := within_ofRatio Nat.one_pos (isFinite_ofNat h) hnormal
  rwa [hratio] at hwithin

section

variable {exponent : Nat} (h : exponent ≤ largestPower)
include h

theorem one_le_power : 1 ≤ (power exponent).amount := by
  obtain ⟨code, hcode⟩ := Format.double.exists_units (n := 1) (by decide) Format.double.scale
  have hvalue : Format.double.value code = 1 := by
    rw [Format.value, hcode]
    push_cast
    rw [one_mul, div_self (by positivity)]
  rw [← hvalue]
  refine le_amount_ofRatio Nat.one_pos (isFinite_power h) ?_
  rw [hvalue, ratio_power]
  exact one_le_pow₀ (by norm_num)

theorem amount_power_pos : 0 < (power exponent).amount := zero_lt_one.trans_le (one_le_power h)

/-- Dividing by a power of ten that is rounded itself. -/
theorem within_over_power {p s a : ℚ} (hwithin : Within p s a) (hp : 0 ≤ p) (hp' : p ≤ 1)
    (ha : 0 ≤ a) :
    Within (p + 5 / 2 ^ 55 + p * (5 / 2 ^ 55)) (s / 10 ^ exponent)
      (a / (power exponent).amount) := by
  have hpos := amount_power_pos h
  have hten : (0 : ℚ) < 10 ^ exponent := by positivity
  have hinverse : Within (5 / 2 ^ 55) (10 ^ exponent)⁻¹ (power exponent).amount⁻¹ :=
    (within_power h).inv hten hpos (by norm_num) (by norm_num) (by norm_num) (by norm_num)
  rw [div_eq_mul_inv, div_eq_mul_inv]
  exact hwithin.mul hp hp' (by norm_num) hinverse ha (inv_nonneg.mpr hten.le)
    (inv_nonneg.mpr hpos.le)

end

/-! ## One product or quotient -/

/-- The largest finite magnitude. -/
def largest : ℚ := Format.double.value (Format.double.infinity - 1)

section

variable {significand : Nat} (hpos : 0 < significand) (hfits : significand < 2 ^ 64)
include hpos hfits

theorem within_product {exponent : Nat} (hpower : exponent ≤ largestPower) :
    Within (8 / 2 ^ 53) (significand * 10 ^ exponent)
      ((ofNat significand : Double).amount * (power exponent).amount) := by
  have hnonneg := amount_nonneg (ofNat significand : Double)
  have hpowerPos := amount_power_pos hpower
  have hnear := (within_ofNat hpos hfits).mul (by norm_num) (by norm_num) (by norm_num)
    (within_power hpower) hnonneg (by positivity) hpowerPos.le
  exact hnear.mono (mul_nonneg hnonneg hpowerPos.le) (by norm_num)

/-- A product is finite unless its decimal is next to infinity or beyond. -/
theorem isFinite_product {exponent : Nat} (hpower : exponent ≤ largestPower)
    (hlarge : (significand * 10 ^ exponent : ℚ) ≤ largest * (1 - 8 / 2 ^ 53)) :
    ((ofNat significand).mul (power exponent)).isFinite = true := by
  have hlow := (within_product hpos hfits hpower).low.trans hlarge
  have hbelow : Format.double.infinity - 1 < Format.double.infinity := by decide
  exact isFinite_mul_of_le hbelow (le_of_mul_le_mul_right hlow (by norm_num))

theorem readAs_mul {exponent : Nat} (hpower : exponent ≤ largestPower)
    (hfinite : ((ofNat significand).mul (power exponent)).isFinite = true) :
    ReadAs (significand * 10 ^ exponent) ((ofNat significand).mul (power exponent)) :=
  ⟨rfl, hfinite, _, within_product hpos hfits hpower, abs_sub_mul_le hfinite⟩

theorem amount_ofNat_bounds :
    (1 : ℚ) / 2 ≤ (ofNat significand : Double).amount ∧
      (ofNat significand : Double).amount < 2 ^ 65 := by
  obtain ⟨hlow, hhigh⟩ := within_ofNat hpos hfits
  have hone : (1 : ℚ) ≤ significand := by exact_mod_cast hpos
  have hmany : (significand : ℚ) < 2 ^ 64 := by exact_mod_cast hfits
  constructor
  · linarith
  · linarith

theorem readAs_div {exponent : Nat} (hpower : exponent ≤ largestPower) :
    ReadAs (significand / 10 ^ exponent) ((ofNat significand).div (power exponent)) := by
  obtain ⟨-, hmost⟩ := amount_ofNat_bounds hpos hfits
  have hnonneg := amount_nonneg (ofNat significand : Double)
  have hpowerPos := amount_power_pos hpower
  have hnear := within_over_power hpower (within_ofNat hpos hfits) (by norm_num) (by norm_num)
    hnonneg
  have hnear := hnear.mono (div_nonneg hnonneg hpowerPos.le)
    (by norm_num : _ ≤ (8 / 2 ^ 53 : ℚ))
  have hfinite := isFinite_div_of_one_le hpowerPos (isFinite_ofNat hfits) (one_le_power hpower)
  exact ⟨rfl, hfinite, _, hnear, abs_sub_div_le hpowerPos hfinite⟩

/-! ## Two quotients -/

omit hpos hfits in
/-- Half a least unit is a tiny part of the least first quotient. -/
theorem dust_le : (1 : ℚ) / 2 ^ 1075 ≤ 5 / 2 ^ 54 * (1 / 10 ^ largestPower) := by
  have hnat : 2 ^ 54 * 10 ^ largestPower ≤ 5 * 2 ^ 1075 := by decide +kernel
  have hcast : (2 : ℚ) ^ 54 * 10 ^ largestPower ≤ 5 * 2 ^ 1075 := by exact_mod_cast hnat
  rw [div_mul_div_comm, mul_one, div_le_div_iff₀ (by positivity) (by positivity), one_mul]
  exact hcast

/-- The first of two quotients hardly loses anything. -/
theorem within_first_quotient :
    ((ofNat significand).div (power largestPower)).isFinite = true ∧
      Within (13 / 2 ^ 54) (significand / 10 ^ largestPower)
        ((ofNat significand).div (power largestPower)).amount := by
  obtain ⟨hleast, hmost⟩ := amount_ofNat_bounds hpos hfits
  have hpowerPos := amount_power_pos (le_refl largestPower)
  obtain ⟨-, hfinite, -⟩ := readAs_div hpos hfits (le_refl largestPower)
  have hnonneg := amount_nonneg (ofNat significand : Double)
  have hquotient := within_over_power (le_refl largestPower) (within_ofNat hpos hfits)
    (by norm_num) (by norm_num) hnonneg
  have hrounded := abs_sub_div_le hpowerPos hfinite
  have hdust : (1 : ℚ) / 2 ^ (Format.double.scale + 1) ≤ 5 / 2 ^ 54 * (1 / 10 ^ largestPower) :=
    dust_le
  have hone : (1 : ℚ) / 10 ^ largestPower ≤ significand / 10 ^ largestPower := by
    gcongr
    exact_mod_cast hpos
  have hvalue := amount_nonneg ((ofNat significand).div (power largestPower))
  refine ⟨hfinite, ?_⟩
  generalize ((ofNat significand).div (power largestPower)).amount = c at *
  generalize (ofNat significand : Double).amount / (power largestPower).amount = q at *
  generalize (1 : ℚ) / 2 ^ (Format.double.scale + 1) = dust at *
  generalize (1 : ℚ) / 10 ^ largestPower = w at *
  have hprecision : (2 : ℚ) ^ Format.double.precision = 2 ^ 53 := rfl
  rw [hprecision] at hrounded
  obtain ⟨habove, hbelow⟩ := abs_sub_le_iff.mp hrounded
  have hw := hone.trans hquotient.high
  have hlast : Within (4 / 2 ^ 53) q c := by
    constructor
    · linarith
    · linarith
  exact (hquotient.trans (by norm_num) (by norm_num) (by norm_num) hlast hvalue).mono hvalue
    (by norm_num)

theorem readAs_div_div {exponent : Nat} (hpower : exponent ≤ largestPower) :
    ReadAs (significand / 10 ^ largestPower / 10 ^ exponent)
      (((ofNat significand).div (power largestPower)).div (power exponent)) := by
  obtain ⟨hfirst, hwithin⟩ := within_first_quotient hpos hfits
  have hnonneg := amount_nonneg ((ofNat significand).div (power largestPower))
  have hpowerPos := amount_power_pos hpower
  have hnear := (within_over_power hpower hwithin (by norm_num) (by norm_num) hnonneg).mono
    (div_nonneg hnonneg hpowerPos.le) (by norm_num : _ ≤ (8 / 2 ^ 53 : ℚ))
  have hfinite := isFinite_div_of_one_le hpowerPos hfirst (one_le_power hpower)
  exact ⟨rfl, hfinite, _, hnear, abs_sub_div_le hpowerPos hfinite⟩

end

/-! ## Every decimal -/

theorem isZero_ofNat {n : Nat} (hpos : 0 < n) (hfits : n < 2 ^ 64) :
    (ofNat n : Double).isZero = false := by
  obtain ⟨hleast, -⟩ := amount_ofNat_bounds hpos hfits
  refine beq_false_of_ne fun hzero => ?_
  have hnothing : (ofNat n : Double).amount = 0 := by
    rw [amount, hzero, Format.value]
    exact div_eq_zero_iff.mpr (.inl (Nat.cast_eq_zero.mpr (by decide)))
  linarith

/-- **A decimal is read as a value**, unless it is scaled up beyond the finite ones. -/
theorem exists_scaled {significand : Nat} {exponent : Int} (hpos : 0 < significand)
    (hfits : significand < 2 ^ 64) (hleast : -616 ≤ exponent) (hmost : exponent ≤ 308)
    (hfinite : 0 ≤ exponent →
      ((ofNat significand).mul (power exponent.toNat)).isFinite = true) :
    ∃ y, scaled significand exponent = some y ∧ ReadAs (significand * 10 ^ exponent) y := by
  have hrange : largestPower = 308 := rfl
  rcases lt_or_ge exponent 0 with hneg | hnonneg
  · obtain ⟨k, rfl⟩ : ∃ k : Nat, exponent = -k := ⟨exponent.natAbs, by omega⟩
    have hscaled : scaled significand (-k) = some (scaleDown (ofNat significand) k) := by
      unfold scaled
      dsimp only
      rw [if_pos hneg, Int.natAbs_neg, Int.natAbs_natCast]
    rw [hscaled, zpow_neg, zpow_natCast, ← div_eq_mul_inv, scaleDown]
    by_cases hone : k ≤ largestPower
    · rw [if_pos hone]
      exact ⟨_, rfl, readAs_div hpos hfits hone⟩
    · obtain ⟨rest, rfl⟩ : ∃ rest, k = largestPower + rest :=
        Nat.exists_eq_add_of_le (by omega)
      have hrest : rest ≤ largestPower := by omega
      rw [if_neg hone, isZero_ofNat hpos hfits, if_neg (by decide), Nat.add_sub_cancel_left,
        scaleDown, if_pos hrest, pow_add, ← div_div]
      exact ⟨_, rfl, readAs_div_div hpos hfits hrest⟩
  · obtain ⟨k, rfl⟩ : ∃ k : Nat, exponent = k := ⟨exponent.toNat, by omega⟩
    have hpower : k ≤ largestPower := by omega
    have hproduct := hfinite hnonneg
    rw [Int.toNat_natCast] at hproduct
    rw [zpow_natCast]
    refine ⟨_, ?_, readAs_mul hpos hfits hpower hproduct⟩
    unfold scaled
    dsimp only
    rw [if_neg (by omega), Int.toNat_natCast, if_pos hpower, if_pos hproduct]

/-! ## Nothing infinite is read -/

theorem isFinite_scaleDown {value : Double} (h : value.isFinite = true) (exponent : Nat) :
    (scaleDown value exponent).isFinite = true := by
  induction exponent using Nat.strongRecOn generalizing value with
  | ind exponent ih =>
    rw [scaleDown]
    split
    next hone => exact isFinite_div_of_one_le (amount_power_pos hone) h (one_le_power hone)
    next hmany =>
      split
      next => exact h
      next =>
        have hless : exponent - largestPower < exponent := by
          unfold largestPower at hmany ⊢
          omega
        exact ih _ hless (isFinite_div_of_one_le (amount_power_pos le_rfl) h (one_le_power le_rfl))

/-- Whatever is read, the value is a finite one. -/
theorem isFinite_scaled {significand : Nat} {exponent : Int} {y : Double}
    (hfits : significand < 2 ^ 64) (h : scaled significand exponent = some y) :
    y.isFinite = true := by
  have hvalue : (ofNat significand : Double).isFinite = true := isFinite_ofNat hfits
  unfold scaled at h
  dsimp only at h
  split at h
  next =>
    obtain rfl := Option.some.inj h
    exact isFinite_scaleDown hvalue _
  next =>
    split at h
    next =>
      split at h
      next hproduct =>
        obtain rfl := Option.some.inj h
        exact hproduct
      next => cases h
    next =>
      split at h
      next =>
        obtain rfl := Option.some.inj h
        exact hvalue
      next => cases h

end CavityConsole.Decimal

import CavityConsole.Proofs.Decimal.Crossing

/-!
# A shortest decimal is read as its value

A decimal of an inbound document is rounded twice in 64 bits and once more to 32 bits. The reading
in 64 bits is off by a tiny part of the number (`readOnce_spec`), so where the decimal is not next
to a point halfway between two 32-bit values, the last rounding gives the value nearest to it.
Next to such a point a shortest decimal has few bits (`fewBits_of_near`), for a step of its last
digit is worth half a step of the values; on the point the reading is exact, and beside it the
decimal is harmless (`harmless_of_near`).

**The law** (`code_convert_readOnce`): a decimal that stands for a 32-bit value is read as that
value.
-/

namespace CavityConsole.Decimal

open Binary

/-! ## Significands and powers -/

theorem isFinite_ofNat {n : Nat} (h : n < 2 ^ 64) : (ofNat n : Double).isFinite = true := by
  refine isFinite_ofRatio (k := 64) ?_ (by decide)
  omega

theorem amount_ofNat {n : Nat} (h : n ≤ 2 ^ 53) : (ofNat n : Double).amount = n := by
  have hkept : (ofNat n : Double).amount = (n : ℚ) / (1 : Nat) :=
    amount_ofRatio_of_representable Nat.one_pos (isFinite_ofNat (by omega))
      (by simpa using Format.double.representable_natCast h)
  simpa using hkept

theorem ratio_power (exponent : Nat) :
    ((Nat.pow 10 exponent : Nat) : ℚ) / (1 : Nat) = 10 ^ exponent := by
  show ((10 ^ exponent : Nat) : ℚ) / (1 : Nat) = _
  push_cast
  rw [div_one]

theorem isFinite_power {exponent : Nat} (h : exponent ≤ largestPower) :
    (power exponent).isFinite = true := by
  have hlargest : 10 ^ largestPower * 2 ^ Format.double.scale ≤
      Format.double.units (Format.double.infinity - 1) := by decide +kernel
  have hbelow : Format.double.infinity - 1 < Format.double.infinity := by decide
  refine isFinite_ofRatio_of_le Nat.one_pos hbelow ?_
  rw [ratio_power, Format.value, le_div_iff₀ (by positivity)]
  calc (10 : ℚ) ^ exponent * 2 ^ Format.double.scale
      ≤ 10 ^ largestPower * 2 ^ Format.double.scale := by
        gcongr
        norm_num
    _ ≤ Format.double.units (Format.double.infinity - 1) := by exact_mod_cast hlargest

/-- A power of ten with few enough factors of five is kept. -/
theorem amount_power {exponent : Nat} (h : exponent ≤ 22) :
    (power exponent).amount = 10 ^ exponent := by
  have hfew : 5 ^ exponent ≤ 2 ^ Format.double.precision :=
    (Nat.pow_le_pow_right (by decide) h).trans (by decide)
  have hbits : Format.double.Representable (10 ^ exponent) := by
    have hscaled := Format.double.representable_scaled hfew exponent (Nat.zero_le _)
    rwa [pow_zero, div_one, Nat.cast_pow, ← mul_pow, show ((5 : Nat) : ℚ) * 2 = 10 by norm_num]
      at hscaled
  have hkept : (power exponent).amount = ((Nat.pow 10 exponent : Nat) : ℚ) / (1 : Nat) :=
    amount_ofRatio_of_representable Nat.one_pos (isFinite_power (h.trans (by decide)))
      (ratio_power exponent ▸ hbits)
  rw [hkept, ratio_power]

/-- The least number with all 53 bits is tiny. -/
theorem leastNormal_le : Format.double.value Format.double.binade ≤ 1 / 10 ^ 60 := by
  have hunits : Format.double.units Format.double.binade = 2 ^ 52 := by decide
  have hscale : (2 : ℚ) ^ 252 ≤ 2 ^ Format.double.scale :=
    pow_le_pow_right₀ (by norm_num) (by decide)
  rw [Format.value, hunits]
  calc ((2 ^ 52 : Nat) : ℚ) / 2 ^ Format.double.scale ≤ (2 ^ 52 : Nat) / 2 ^ 252 := by gcongr
    _ ≤ 1 / 10 ^ 60 := by norm_num

/-- Other powers of ten are rounded once. -/
theorem within_power {exponent : Nat} (h : exponent ≤ largestPower) :
    Within (1 / 2 ^ 53) (10 ^ exponent) (power exponent).amount := by
  have hone : (1 : ℚ) ≤ 10 ^ exponent := one_le_pow₀ (by norm_num)
  have hnormal : Format.double.value Format.double.binade ≤
      ((Nat.pow 10 exponent : Nat) : ℚ) / (1 : Nat) := by
    rw [ratio_power]
    exact leastNormal_le.trans (le_trans (by norm_num) hone)
  have hwithin := within_ofRatio Nat.one_pos (isFinite_power h) hnormal
  rwa [ratio_power] at hwithin

/-- A power of ten stays between these when it is rounded. -/
theorem amount_power_bounds {exponent : Nat} (h : exponent ≤ 53) :
    1 / 2 ≤ (power exponent).amount ∧ (power exponent).amount ≤ 10 ^ 54 := by
  obtain ⟨hlow, hhigh⟩ := within_power (h.trans (by decide))
  have hone : (1 : ℚ) ≤ 10 ^ exponent := one_le_pow₀ (by norm_num)
  have hmost : (10 : ℚ) ^ exponent ≤ 10 ^ 53 := pow_le_pow_right₀ (by norm_num) h
  constructor
  · linarith
  · linarith

/-! ## The reading of a decimal -/

theorem negative_readOnce (significand : Nat) (exponent : Int) :
    (readOnce significand exponent).negative = false := by
  unfold readOnce
  split <;> rfl

theorem scale_eq (significand : Nat) (exponent : Int) :
    (significand * 10 ^ exponent : ℚ) =
      if exponent < 0 then (significand : ℚ) / 10 ^ exponent.natAbs
      else (significand : ℚ) * 10 ^ exponent.toNat := by
  split
  next h =>
    obtain ⟨p, rfl⟩ : ∃ p : Nat, exponent = -p := ⟨exponent.natAbs, by omega⟩
    rw [zpow_neg, zpow_natCast, Int.natAbs_neg, Int.natAbs_natCast, div_eq_mul_inv]
  next h =>
    obtain ⟨p, rfl⟩ : ∃ p : Nat, exponent = p := ⟨exponent.toNat, by omega⟩
    rw [zpow_natCast, Int.toNat_natCast]

section

variable {significand : Nat} {exponent : Int} (hdigits : 0 < significand)
  (hdigits' : significand ≤ 2 ^ 53) (hlow : -53 ≤ exponent) (hhigh : exponent ≤ 53)
include hdigits hdigits' hlow hhigh

/-- **A reading is finite, and off by little more than two roundings.** -/
theorem readOnce_spec :
    (readOnce significand exponent).isFinite = true ∧
      Within (1 / part) (significand * 10 ^ exponent) (readOnce significand exponent).amount := by
  have hexact := amount_ofNat hdigits'
  have hone : (1 : ℚ) ≤ significand := by exact_mod_cast hdigits
  have hmany : (significand : ℚ) ≤ 2 ^ 53 := by exact_mod_cast hdigits'
  have hpart : (1 / part : ℚ) = 4 * (1 / 2 ^ 53) := by norm_num [part]
  have htiny := leastNormal_le
  rw [scale_eq, readOnce, hpart]
  split
  next hneg =>
    have hsmall : exponent.natAbs ≤ 53 := by omega
    have hpower := within_power (hsmall.trans (by decide))
    obtain ⟨hleast, hmost⟩ := amount_power_bounds hsmall
    generalize power exponent.natAbs = y at hpower hleast hmost ⊢
    have hpos : 0 < y.amount := by linarith
    -- the quotient is neither too large to be finite nor too small to have all its bits
    have hfinite : ((ofNat significand).div y).isFinite = true := by
      refine isFinite_div_of_lt hpos (k := 60) ?_ (by decide)
      rw [hexact, div_lt_iff₀ hpos]
      linarith
    have hrounded := within_div hpos hfinite ?_
    · rw [hexact] at hrounded
      exact ⟨hfinite, hpower.quotient (by norm_num) (by norm_num) (amount_nonneg _) hpos
        (by positivity) hrounded⟩
    · rw [hexact, le_div_iff₀ hpos]
      calc Format.double.value Format.double.binade * y.amount ≤ 1 / 10 ^ 60 * 10 ^ 54 :=
            mul_le_mul htiny hmost hpos.le (by positivity)
        _ ≤ significand := le_trans (by norm_num) hone
  next =>
    have hsmall : exponent.toNat ≤ 53 := by omega
    have hpower := within_power (hsmall.trans (by decide))
    obtain ⟨hleast, hmost⟩ := amount_power_bounds hsmall
    generalize power exponent.toNat = y at hpower hleast hmost ⊢
    have hfinite : ((ofNat significand).mul y).isFinite = true := by
      refine isFinite_mul_of_lt (k := 240) ?_ (by decide)
      rw [hexact]
      calc (significand * y.amount : ℚ) ≤ 2 ^ 53 * 10 ^ 54 := by gcongr
        _ < 2 ^ 240 := by norm_num
    have hrounded := within_mul hfinite ?_
    · rw [hexact] at hrounded
      exact ⟨hfinite, hpower.product (by norm_num) (by norm_num) (amount_nonneg _) (by positivity)
        hrounded⟩
    · rw [hexact]
      calc Format.double.value Format.double.binade ≤ 1 / 10 ^ 60 := htiny
        _ ≤ 1 * (1 / 2) := by norm_num
        _ ≤ significand * y.amount := by gcongr

/-- A reading scaled by a small power of ten is exact when the number has few enough bits. -/
theorem amount_readOnce_of_representable (hsmall : exponent.natAbs ≤ 22)
    (h : Format.double.Representable (significand * 10 ^ exponent)) :
    (readOnce significand exponent).amount = significand * 10 ^ exponent := by
  have hexact := amount_ofNat hdigits'
  obtain ⟨hfinite, -⟩ := readOnce_spec hdigits hdigits' hlow hhigh
  rw [scale_eq] at h ⊢
  unfold readOnce at hfinite ⊢
  split
  next hneg =>
    rw [if_pos hneg] at h hfinite
    have hpower := amount_power hsmall
    have hpos : 0 < (power exponent.natAbs).amount := hpower ▸ by positivity
    rw [← hexact, ← hpower] at h
    rw [amount_div_of_representable hpos hfinite h, hexact, hpower]
  next hneg =>
    rw [if_neg hneg] at h hfinite
    have hpower := amount_power (by omega : exponent.toNat ≤ 22)
    rw [← hexact, ← hpower] at h
    rw [amount_mul_of_representable hfinite h, hexact, hpower]

end

/-! ## Halfway points -/

theorem exponent_le_of_dvd {n exponent k : Nat} (hn : 0 < n) (hn' : n ≤ fewBits)
    (h : 5 ^ exponent ∣ n * 2 ^ k) : exponent ≤ 10 := by
  have hcoprime : Nat.Coprime (5 ^ exponent) (2 ^ k) := Nat.Coprime.pow _ _ (by decide)
  have hle := Nat.le_of_dvd hn (hcoprime.dvd_of_dvd_mul_right h)
  by_contra hmore
  have hpower : 5 ^ 11 ≤ 5 ^ exponent := Nat.pow_le_pow_right (by decide) (by omega)
  have hbound : fewBits < 5 ^ 11 := by decide
  omega

/-- A decimal of few bits on a halfway point is scaled by a small power of ten, for only a few
factors of five are in few bits. -/
theorem exponent_le_of_point {d : Decimal} {s odd : Nat} (hdigits : 0 < d.digits)
    (hdigits' : d.digits ≤ fewBits) (hodd : 0 < odd) (hodd' : odd ≤ fewBits)
    (h : d.value = odd * (2 ^ s / 2 ^ 150 : ℚ)) : d.exponent.natAbs ≤ 10 := by
  have hwhole : d.digits * 10 ^ d.exponent.toNat * 2 ^ 150 =
      odd * 2 ^ s * 10 ^ (-d.exponent).toNat := by
    rw [value_eq, mul_div_assoc', div_eq_div_iff (by positivity) (by positivity)] at h
    exact_mod_cast h
  rcases le_total 0 d.exponent with hpos | hneg
  · obtain ⟨p, hp⟩ : ∃ p : Nat, d.exponent = p := ⟨d.exponent.toNat, by omega⟩
    rw [hp, Int.toNat_natCast, Int.toNat_neg_natCast, pow_zero, mul_one] at hwhole
    rw [hp, Int.natAbs_natCast]
    refine exponent_le_of_dvd hodd hodd' (k := s) (hwhole ▸ ?_)
    exact ((pow_dvd_pow_of_dvd (by decide) p).mul_left d.digits).mul_right (2 ^ 150)
  · obtain ⟨p, hp⟩ : ∃ p : Nat, d.exponent = -p := ⟨(-d.exponent).toNat, by omega⟩
    rw [hp, neg_neg, Int.toNat_natCast, Int.toNat_neg_natCast, pow_zero, mul_one] at hwhole
    rw [hp, Int.natAbs_neg, Int.natAbs_natCast]
    refine exponent_le_of_dvd hdigits hdigits' (k := 150) (hwhole ▸ ?_)
    exact (pow_dvd_pow_of_dvd (by decide) p).mul_left (odd * 2 ^ s)

/-- A point halfway between two 32-bit values, and how far it is from either. -/
theorem exists_point {code : Nat} (h : code < Format.single.infinity) :
    ∃ s < 254, ∃ odd < fewBits, 0 < odd ∧
      Format.single.halfway code = odd * (2 ^ s / 2 ^ 150 : ℚ) ∧
      Format.single.halfway code - Format.single.value code = 2 ^ s / 2 ^ 150 ∧
      Format.single.value (code + 1) - Format.single.halfway code = 2 ^ s / 2 ^ 150 := by
  obtain ⟨n, hn, hunits⟩ := Format.single.exists_steps code
  have hbinade : code / Format.single.binade < 255 :=
    (Nat.div_lt_iff_lt_mul Format.single.binade_pos).mpr h
  have hnext := Format.single.units_succ code
  have hodd : 2 * n + 1 < fewBits := by
    have hmany : n < 2 ^ 24 := hn
    show 2 * n + 1 < 2 ^ 25
    omega
  have hscale : (2 : ℚ) ^ 150 = 2 * 2 ^ Format.single.scale := (pow_succ' 2 149)
  refine ⟨code / Format.single.binade - 1, by omega, 2 * n + 1, hodd, Nat.succ_pos _, ?_, ?_, ?_⟩
  · rw [Format.single.halfway_eq, hnext, hunits, hscale, Format.step]
    push_cast
    field_simp
    ring
  · rw [Format.single.halfway_eq, Format.value, hnext, hunits, hscale, Format.step]
    push_cast
    field_simp
    ring
  · rw [Format.single.halfway_eq, Format.value, hnext, hunits, hscale, Format.step]
    push_cast
    field_simp
    ring

/-- A decimal that is no farther from its value than a step of its last digit, and next to a point
halfway to another value, has few bits. -/
theorem fewBits_of_near {digits odd : Nat} {x half digit : ℚ} (hhalf : 0 < half)
    (hodd : odd < fewBits) (hx : odd * half - x = half ∨ x - odd * half = half)
    (hclose : |digits * digit - x| ≤ digit)
    (hnear : Within (1 / part) (digits * digit) (odd * half)) :
    half ≤ 2 * digit ∧ digits ≤ fewBits := by
  have hpart : (1 / part : ℚ) = 1 / 2 ^ 51 := by norm_num [part]
  have hpoint : odd * half ≤ (2 ^ 25 - 1) * half := by
    have hle : (odd + 1 : ℚ) ≤ 2 ^ 25 := by
      have hle : odd + 1 ≤ 2 ^ 25 := hodd
      exact_mod_cast hle
    exact mul_le_mul_of_nonneg_right (by linarith) hhalf.le
  obtain ⟨hlow, hhigh⟩ := hnear
  obtain ⟨hupper, hlower⟩ := abs_sub_le_iff.mp hclose
  rw [hpart] at hlow hhigh
  generalize (odd * half : ℚ) = point at *
  have hdigit : half * (1 - 1 / 2 ^ 26) ≤ digit := by
    rcases hx with hx | hx
    · linarith
    · linarith
  refine ⟨by linarith, ?_⟩
  by_contra hmore
  have hmany : (2 ^ 25 + 1 : ℚ) ≤ digits := by
    have hle : 2 ^ 25 + 1 ≤ digits := Nat.lt_of_not_le hmore
    exact_mod_cast hle
  have hless := mul_le_mul_of_nonneg_right hmany (by linarith : 0 ≤ digit)
  linarith

/-- The reader takes no steps where the power of ten is within range. -/
theorem scaled_eq_readOnce {significand : Nat} {exponent : Int}
    (hrange : exponent.natAbs ≤ largestPower)
    (hfinite : (readOnce significand exponent).isFinite = true) :
    scaled significand exponent = some (readOnce significand exponent) := by
  unfold scaled readOnce at *
  dsimp only
  split
  next => rw [scaleDown, if_pos hrange]
  next hneg =>
    rw [if_neg hneg] at hfinite
    rw [if_pos (by omega), if_pos hfinite]

section

variable {code : Nat} {d : Decimal} (hcode : 0 < code) (hfinite : code < Format.single.infinity)
  (h : Represents Format.single code d)
include hcode hfinite h

theorem code_nearestSingle : (nearestSingle d.digits d.exponent).code = code := by
  obtain ⟨hlow, hhigh, htie, -⟩ := h
  rw [value_eq] at hlow hhigh htie
  exact code_ofRatio_of_between (Nat.pow_pos (by decide)) hcode hfinite hlow hhigh htie

variable (hdigits : 0 < d.digits) (hdigits' : d.digits ≤ 2 ^ 53) (hleast : -53 ≤ d.exponent)
  (hmost : d.exponent < 40)
include hdigits hdigits' hleast hmost

/-- A reading next to a halfway point of the code makes no difference. -/
theorem code_convert_of_near (point : Nat) (hpoint : point = code ∨ point + 1 = code)
    (hnear : Within (1 / part) d.value (Format.single.halfway point)) :
    ((readOnce d.digits d.exponent).convert Format.single).code = code := by
  obtain ⟨s, hs, odd, hodd, hpos, hhalfway, hbelow, habove⟩ :=
    exists_point (by omega : point < Format.single.infinity)
  have hx : odd * (2 ^ s / 2 ^ 150) - Format.single.value code = 2 ^ s / 2 ^ 150 ∨
      Format.single.value code - odd * (2 ^ s / 2 ^ 150) = 2 ^ s / 2 ^ 150 := by
    rw [← hhalfway]
    rcases hpoint with rfl | rfl
    · exact .inl hbelow
    · exact .inr habove
  rw [hhalfway] at hnear
  obtain ⟨hworth, hfew⟩ := fewBits_of_near (by positivity) hodd hx h.close hnear
  by_cases hsame : d.value = odd * (2 ^ s / 2 ^ 150 : ℚ)
  · -- on a halfway point the reading is exact
    have hsmall := exponent_le_of_point hdigits hfew hpos hodd.le hsame
    have hbits : Format.double.Representable d.value := by
      rw [hsame]
      exact Format.double.representable_scaled (hodd.le.trans (by decide)) s (by decide)
    have hexact := amount_readOnce_of_representable hdigits hdigits' hleast (by omega) (by omega)
      hbits
    obtain ⟨hreading, -⟩ := readOnce_spec hdigits hdigits' hleast (by omega)
    refine code_convert_of_between hreading hcode hfinite ?_ ?_ ?_
    · exact hexact ▸ h.low
    · exact hexact ▸ h.high
    · exact hexact ▸ h.tie
  · have hharmless := harmless_of_near hs hleast hmost hdigits hfew hpos hodd.le hworth hnear hsame
    rw [harmless, beq_iff_eq] at hharmless
    rw [hharmless, code_nearestSingle hcode hfinite h]

/-- **A decimal that stands for a 32-bit value is read as that value**, although it is read in 64
bits, with two roundings, and rounded once more. -/
theorem code_convert_readOnce :
    ((readOnce d.digits d.exponent).convert Format.single).code = code := by
  obtain ⟨hreading, hlow, hhigh⟩ := readOnce_spec hdigits hdigits' hleast (by omega)
  have hpart : (0 : ℚ) < 1 / part ∧ (1 / part : ℚ) < 1 := by norm_num [part]
  have hnonneg := amount_nonneg (readOnce d.digits d.exponent)
  by_cases hbelow : (readOnce d.digits d.exponent).amount ≤ Format.single.halfway (code - 1)
  · -- the decimal is above the lower halfway point, its reading is not
    refine code_convert_of_near hcode hfinite h hdigits hdigits' hleast hmost (code - 1)
      (.inr (by omega)) ⟨?_, ?_⟩
    · exact (mul_le_of_le_one_right (hnonneg.trans hbelow) (by linarith)).trans h.low
    · exact hhigh.trans (mul_le_mul_of_nonneg_right hbelow (by linarith))
  by_cases habove : Format.single.halfway code ≤ (readOnce d.digits d.exponent).amount
  · -- the decimal is below the upper halfway point, its reading is not
    refine code_convert_of_near hcode hfinite h hdigits hdigits' hleast hmost code
      (.inl rfl) ⟨?_, ?_⟩
    · exact (mul_le_mul_of_nonneg_right habove (by linarith)).trans hlow
    · have hpositive : 0 ≤ Format.single.halfway code :=
        (mul_nonneg hnonneg (by linarith)).trans (hlow.trans h.high)
      exact h.high.trans (le_mul_of_one_le_right hpositive (by linarith))
  · push Not at hbelow habove
    refine code_convert_of_between hreading hcode hfinite hbelow.le habove.le ?_
    rintro (htie | htie)
    · exact absurd htie hbelow.ne
    · exact absurd htie habove.ne

omit hdigits' hleast hmost in
/-- An integer with a zero behind the point is read without an error. -/
theorem code_convert_whole (hwhole : 0 ≤ d.exponent)
    (hfew : d.digits * 10 ^ (d.exponent + 1).toNat ≤ 2 ^ 53) :
    ((readOnce (d.digits * 10 ^ (d.exponent + 1).toNat) (-1)).convert Format.single).code =
      code := by
  obtain ⟨p, hp⟩ : ∃ p : Nat, d.exponent = p := ⟨d.exponent.toNat, by omega⟩
  have hpower : (d.exponent + 1).toNat = p + 1 := by omega
  rw [hpower] at hfew ⊢
  have hpos : 0 < d.digits * 10 ^ (p + 1) := Nat.mul_pos hdigits (Nat.pow_pos (by decide))
  have hvalue : ((d.digits * 10 ^ (p + 1) : Nat) * 10 ^ (-1 : Int) : ℚ) = d.value := by
    rw [value, hp, zpow_natCast]
    push_cast
    rw [pow_succ, zpow_neg_one]
    field_simp
  have hbits : Format.double.Representable d.value := by
    have hnatural : d.value = (d.digits * 10 ^ p : Nat) := by
      rw [value, hp, zpow_natCast]
      push_cast
      rfl
    rw [hnatural]
    refine Format.double.representable_natCast (le_trans ?_ hfew)
    exact Nat.mul_le_mul_left _ (Nat.pow_le_pow_right (by decide) (Nat.le_succ p))
  obtain ⟨hreading, -⟩ := readOnce_spec hpos hfew (by decide : -53 ≤ (-1 : Int)) (by decide)
  have hexact := amount_readOnce_of_representable hpos hfew (by decide : -53 ≤ (-1 : Int))
    (by decide) (by decide) (hvalue ▸ hbits)
  rw [hvalue] at hexact
  refine code_convert_of_between hreading hcode hfinite ?_ ?_ ?_
  · exact hexact ▸ h.low
  · exact hexact ▸ h.high
  · exact hexact ▸ h.tie

end

/-- With a single rounding in 64 bits the law would fail: the 64-bit value nearest to this shortest
decimal is on a halfway point, which then goes to the even code next to it. -/
example : shortest Format.single 363742205 = ⟨7038531, -32⟩ ∧
    ((ofDecimal false 7038531 (-32) : Double).convert Format.single).code = 363742206 ∧
    ((readOnce 7038531 (-32)).convert Format.single).code = 363742205 := by
  decide +kernel

end CavityConsole.Decimal

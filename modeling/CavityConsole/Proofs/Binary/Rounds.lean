import CavityConsole.Proofs.Decimal.Interval

/-!
# The value that a number is rounded to

`Format.Rounds` says what rounding to a format is, without saying how it is done: a number is
rounded to the finite magnitude that no other one is nearer to, of two equally near ones to that with
the even code, and from halfway between the largest finite magnitude and the next power of two on to
infinity. A number is rounded to one magnitude only (`Format.Rounds.unique`).

* `rounds_ofRatio`: ratios are rounded so, and with them whole numbers and values of other formats;
* `rounds_ofDecimal`: and so are decimals, those included that are not multiplied out because they
  are too large or too small;
* `le_iff`: values are in the order of the numbers that they stand for.
-/

namespace CavityConsole.Binary

variable {f : Format}

/-- What a number from zero on is rounded to. -/
inductive Format.Rounds (f : Format) (v : ℚ) : Nat → Prop where
  | finite {code : Nat} (isFinite : code < f.infinity) (below : v < f.halfway (f.infinity - 1))
    (nearest : ∀ other < f.infinity, |v - f.value code| ≤ |v - f.value other|)
    (tie : ∀ other < f.infinity, other ≠ code → |v - f.value code| = |v - f.value other| →
      code % 2 = 0) : Rounds f v code
  | infinite (beyond : f.halfway (f.infinity - 1) ≤ v) : Rounds f v f.infinity

/-! ## Magnitudes and the points between them -/

theorem Format.value_strictMono (f : Format) : StrictMono f.value := fun a b h => by
  have hunits := f.units_strictMono h
  unfold Format.value
  gcongr

theorem Format.halfway_mono (f : Format) : Monotone f.halfway := fun a b h => by
  have hvalue := f.value_strictMono.monotone h
  have hnext := f.value_strictMono.monotone (Nat.succ_le_succ h)
  unfold Format.halfway
  linarith

theorem Format.value_lt_halfway (f : Format) (code : Nat) : f.value code < f.halfway code := by
  have hnext := f.value_strictMono (Nat.lt_succ_self code)
  unfold Format.halfway
  linarith

theorem Format.halfway_lt_value (f : Format) {a b : Nat} (h : a < b) : f.halfway a < f.value b := by
  have hvalue := f.value_strictMono (Nat.lt_succ_self a)
  have hnext := f.value_strictMono.monotone (Nat.succ_le_of_lt h)
  unfold Format.halfway
  linarith

theorem Format.infinity_pos (f : Format) : 0 < f.infinity := by
  have hbits : 2 ^ 2 ≤ 2 ^ f.exponentBits := Nat.pow_le_pow_right (by decide) f.two_le_exponentBits
  refine Nat.mul_pos ?_ f.binade_pos
  show 0 < 2 ^ f.exponentBits - 1
  omega

theorem Format.infinity_even (f : Format) : f.infinity % 2 = 0 := by
  rw [Format.infinity, Nat.mul_mod, f.binade_even, Nat.mul_zero, Nat.zero_mod]

/-! ## One magnitude at most -/

variable {v : ℚ}

/-- Of two magnitudes that a number is rounded to, the larger is not larger: both would be even, and
there is a nearer one between them. -/
theorem Format.Rounds.not_lt {a b : Nat} (ha : f.Rounds v a) (hb : f.Rounds v b) : ¬ a < b := by
  intro hlt
  cases ha with
  | infinite _ =>
    cases hb with
    | infinite _ => exact lt_irrefl _ hlt
    | finite hfinite => exact lt_asymm hlt hfinite
  | finite hfinite hbelow hnearest htie =>
    cases hb with
    | infinite hbeyond => exact absurd hbelow hbeyond.not_gt
    | finite hfinite' _ hnearest' htie' =>
      have hsame := le_antisymm (hnearest b hfinite') (hnearest' a hfinite)
      have heven := htie b hfinite' hlt.ne' hsame
      have heven' := htie' a hfinite hlt.ne hsame.symm
      have hgap : a + 1 < b := by omega
      have habove := f.value_strictMono (Nat.lt_succ_self a)
      have hbelow := f.value_strictMono hgap
      have hbetween := hnearest (a + 1) (by omega)
      rcases abs_cases (v - f.value a) with ⟨h₁, _⟩ | ⟨h₁, _⟩ <;>
        rcases abs_cases (v - f.value b) with ⟨h₂, _⟩ | ⟨h₂, _⟩ <;>
        rcases abs_cases (v - f.value (a + 1)) with ⟨h₃, _⟩ | ⟨h₃, _⟩ <;> linarith

theorem Format.Rounds.unique {a b : Nat} (ha : f.Rounds v a) (hb : f.Rounds v b) : a = b :=
  Nat.le_antisymm (Nat.le_of_not_lt (hb.not_lt ha)) (Nat.le_of_not_lt (ha.not_lt hb))

/-- A value is its sign and its magnitude. -/
theorem eq_of_parts {x y : Binary f} (hcode : x.code = y.code) (hsign : x.negative = y.negative) :
    x = y := by
  cases x
  cases y
  cases hcode
  cases hsign
  rfl

/-! ## Every ratio is rounded -/

theorem Format.two_mul_halfway (f : Format) (code : Nat) :
    2 * f.halfway code = f.value code + f.value (code + 1) := by
  unfold Format.halfway
  ring

/-- A number that is not below the halfway point in front of a magnitude is no nearer to one below
that, and as near only on the halfway point. -/
theorem Format.nearest_of_low {code other : Nat} (hother : other < code)
    (hlow : f.halfway (code - 1) ≤ v) :
    |v - f.value code| ≤ |v - f.value other| ∧
      (|v - f.value code| = |v - f.value other| → f.halfway (code - 1) = v) := by
  have hpoint := f.two_mul_halfway (code - 1)
  rw [Nat.sub_add_cancel (Nat.zero_lt_of_lt hother)] at hpoint
  have hbefore : f.value other ≤ f.value (code - 1) := f.value_strictMono.monotone (by omega)
  have hless : f.value other < f.value code := f.value_strictMono hother
  have habove : |v - f.value other| = v - f.value other := abs_of_nonneg (by linarith)
  rw [habove]
  constructor
  · exact abs_le.mpr ⟨by linarith, by linarith⟩
  · intro hsame
    rcases abs_cases (v - f.value code) with ⟨hcode, -⟩ | ⟨hcode, -⟩ <;> linarith

/-- A number that is not above the halfway point behind a magnitude is no nearer to one above that,
and as near only on the halfway point. -/
theorem Format.nearest_of_high {code other : Nat} (hother : code < other)
    (hhigh : v ≤ f.halfway code) :
    |v - f.value code| ≤ |v - f.value other| ∧
      (|v - f.value code| = |v - f.value other| → v = f.halfway code) := by
  have hpoint := f.two_mul_halfway code
  have hbehind : f.value (code + 1) ≤ f.value other := f.value_strictMono.monotone hother
  have hmore : f.value code < f.value other := f.value_strictMono hother
  have hbelow : |v - f.value other| = -(v - f.value other) := abs_of_nonpos (by linarith)
  rw [hbelow]
  constructor
  · exact abs_le.mpr ⟨by linarith, by linarith⟩
  · intro hsame
    rcases abs_cases (v - f.value code) with ⟨hcode, -⟩ | ⟨hcode, -⟩ <;> linarith

/-- A number between the halfway points of a magnitude is rounded to it. -/
theorem Format.rounds_of_between {code : Nat} (hfinite : code < f.infinity)
    (hlow : 0 < code → f.halfway (code - 1) ≤ v) (hhigh : v ≤ f.halfway code)
    (htie : (0 < code ∧ f.halfway (code - 1) = v) ∨ v = f.halfway code → code % 2 = 0) :
    f.Rounds v code := by
  have hpos := f.infinity_pos
  have hodd : (f.infinity - 1) % 2 = 1 := by
    have heven := f.infinity_even
    omega
  refine .finite hfinite ?_ (fun other _ => ?_) fun other _ hother hsame => ?_
  · have hmost := f.halfway_mono (Nat.le_sub_one_of_lt hfinite)
    refine lt_of_le_of_ne (hhigh.trans hmost) fun hlast => ?_
    -- on the last halfway point the code would be the largest finite one, which is odd
    have hlargest : code = f.infinity - 1 := by
      by_contra hless
      have hvalue := f.halfway_lt_value (show code < f.infinity - 1 by omega)
      have hpoint := f.value_lt_halfway (f.infinity - 1)
      linarith
    have heven := htie (.inr (hlargest ▸ hlast))
    omega
  · rcases lt_trichotomy other code with hless | rfl | hmore
    · exact (f.nearest_of_low hless (hlow (Nat.zero_lt_of_lt hless))).1
    · exact le_rfl
    · exact (f.nearest_of_high hmore hhigh).1
  · rcases Nat.lt_or_gt_of_ne hother with hless | hmore
    · have hcode := Nat.zero_lt_of_lt hless
      exact htie (.inl ⟨hcode, (f.nearest_of_low hless (hlow hcode)).2 hsame⟩)
    · exact htie (.inr ((f.nearest_of_high hmore hhigh).2 hsame))

section

variable {num den : Nat} (hden : 0 < den)
include hden

/-- The halfway points of a nearest magnitude, as rational numbers. -/
theorem Nearest.between {code : Nat} (h : Nearest f (num * 2 ^ f.scale) den code) :
    (0 < code → f.halfway (code - 1) ≤ (num : ℚ) / den) ∧ (num : ℚ) / den ≤ f.halfway code ∧
      ((0 < code ∧ f.halfway (code - 1) = (num : ℚ) / den) ∨ (num : ℚ) / den = f.halfway code →
        code % 2 = 0) := by
  have hden' : (0 : ℚ) < den := Nat.cast_pos.mpr hden
  have hunit : (0 : ℚ) < 2 * 2 ^ f.scale := by positivity
  obtain ⟨hlow, hhigh, htie⟩ := h
  refine ⟨fun hcode => ?_, ?_, fun hpoint => htie ?_⟩
  · rw [f.halfway_eq (code - 1), Nat.sub_add_cancel hcode, div_le_div_iff₀ hunit hden']
    qify at hlow
    linarith
  · rw [f.halfway_eq code, div_le_div_iff₀ hden' hunit]
    qify at hhigh
    linarith
  · rcases hpoint with ⟨hcode, hpoint⟩ | hpoint
    · rw [f.halfway_eq (code - 1), Nat.sub_add_cancel hcode,
        div_eq_div_iff hunit.ne' hden'.ne'] at hpoint
      refine .inl ?_
      qify
      linarith
    · rw [f.halfway_eq code, div_eq_div_iff hden'.ne' hunit.ne'] at hpoint
      refine .inr ?_
      qify
      linarith

/-- **A ratio is rounded** to its nearest magnitude. -/
theorem rounds_ofRatio (negative : Bool) :
    f.Rounds ((num : ℚ) / den) (ofRatio negative num den : Binary f).code := by
  obtain ⟨hlow, hhigh, htie⟩ := (nearest_nearestCode f (num * 2 ^ f.scale) hden).between hden
  show f.Rounds _ (min (f.nearestCode (num * 2 ^ f.scale) den) f.infinity)
  rcases Nat.lt_or_ge (f.nearestCode (num * 2 ^ f.scale) den) f.infinity with hfinite | hlarge
  · rw [Nat.min_eq_left hfinite.le]
    exact f.rounds_of_between hfinite hlow hhigh htie
  · rw [Nat.min_eq_right hlarge]
    have hpos := f.infinity_pos
    exact .infinite ((f.halfway_mono (Nat.sub_le_sub_right hlarge 1)).trans (hlow (by omega)))

end

/-- An integer is rounded without its sign, which is kept. -/
theorem rounds_ofInt (i : Int) :
    f.Rounds |(i : ℚ)| (ofInt i : Binary f).code ∧
      (ofInt i : Binary f).negative = decide (i < 0) := by
  have h : f.Rounds (i.natAbs / (1 : Nat)) (ofInt i : Binary f).code :=
    rounds_ofRatio Nat.one_pos (i < 0)
  rw [Nat.cast_one, div_one, Nat.cast_natAbs, Int.cast_abs] at h
  exact ⟨h, rfl⟩

/-- A finite value is rounded to another format, and keeps its sign. -/
theorem rounds_convert {g : Format} {x : Binary f} (h : x.isFinite = true) :
    g.Rounds x.amount (x.convert g).code ∧ (x.convert g).negative = x.negative := by
  refine ⟨?_, negative_convert g x⟩
  rw [convert, if_pos h, ← ratio_convert]
  exact rounds_ofRatio (Nat.two_pow_pos _) x.negative

/-! ## Decimals -/

/-- The point from which on numbers are rounded to infinity is below a power of two. -/
theorem Format.halfway_lt_pow (f : Format) :
    f.halfway (f.infinity - 1) < 2 ^ 2 ^ f.exponentBits := by
  have hpos := f.infinity_pos
  have hprecision := f.two_le_precision
  have hbits : 0 < 2 ^ f.exponentBits := Nat.two_pow_pos _
  have hquotient : f.infinity / f.binade = 2 ^ f.exponentBits - 1 :=
    Nat.mul_div_cancel _ f.binade_pos
  have hunits := f.units_lt f.infinity
  rw [hquotient] at hunits
  have hscale : f.precision - 1 ≤ f.scale := Nat.le_add_left _ _
  have hpow : f.units f.infinity ≤ 2 ^ (2 ^ f.exponentBits + f.scale) :=
    hunits.le.trans (Nat.pow_le_pow_right (by decide) (by omega))
  have hvalue : f.value f.infinity ≤ 2 ^ 2 ^ f.exponentBits := by
    rw [Format.value, div_le_iff₀ (by positivity), ← pow_add]
    exact_mod_cast hpow
  exact (f.halfway_lt_value (by omega)).trans_le hvalue

/-- What is not above half a least unit is rounded to nothing. -/
theorem Format.rounds_zero {v : ℚ} (h : v ≤ f.halfway 0) : f.Rounds v 0 :=
  f.rounds_of_between f.infinity_pos (fun hcode => absurd hcode (lt_irrefl 0)) h fun _ => rfl

theorem Format.halfway_zero (f : Format) : f.halfway 0 = 1 / 2 ^ (f.scale + 1) := by
  have hone : f.units 1 = 1 := by
    have hunits := f.units_shift (s := 0) (n := 1) (by have hb := f.binade_pos; omega) (.inl rfl)
    simpa using hunits
  have hzero : f.units 0 = 0 := by simp [Format.units]
  rw [f.halfway_eq 0, hzero, hone, pow_succ']
  norm_num

/-- A decimal is below the power of ten of its digits. -/
theorem decimal_lt (significand : Nat) (exponent : Int) :
    (significand * 10 ^ exponent : ℚ) < 10 ^ (Decimal.digitCount significand + exponent) := by
  have hfew : (significand : ℚ) < 10 ^ Decimal.digitCount significand := by
    exact_mod_cast Decimal.lt_pow_digitCount significand
  rw [zpow_add₀ (by norm_num), zpow_natCast]
  exact mul_lt_mul_of_pos_right hfew (Decimal.ten_zpow_pos exponent)

/-- A positive decimal is at least the power of ten before that. -/
theorem le_decimal {significand : Nat} (hpos : 0 < significand) (exponent : Int) :
    (10 : ℚ) ^ (Decimal.digitCount significand + exponent - 1) ≤ significand * 10 ^ exponent := by
  have hcount := Decimal.digitCount_pos significand
  have hmany : (10 : ℚ) ^ (Decimal.digitCount significand - 1) ≤ significand := by
    exact_mod_cast Decimal.pow_digitCount_le hpos
  have hplace : (Decimal.digitCount significand + exponent - 1 : Int) =
      (Decimal.digitCount significand - 1 : Nat) + exponent := by omega
  rw [hplace, zpow_add₀ (by norm_num), zpow_natCast]
  exact mul_le_mul_of_nonneg_right hmany (Decimal.ten_zpow_pos exponent).le

/-- What has more digits than powers of two are in the range is rounded to infinity. -/
theorem Format.rounds_of_large {place : Int} (hlarge : ((2 ^ f.exponentBits : Nat) : Int) < place)
    (h : 10 ^ (place - 1) ≤ v) : f.Rounds v f.infinity := by
  have hpower : ((2 ^ f.exponentBits : Nat) : Int) ≤ place - 1 := Int.le_sub_one_of_lt hlarge
  refine .infinite (f.halfway_lt_pow.le.trans (le_trans ?_ h))
  calc (2 : ℚ) ^ 2 ^ f.exponentBits ≤ 10 ^ 2 ^ f.exponentBits := by gcongr; norm_num
    _ = 10 ^ ((2 ^ f.exponentBits : Nat) : Int) := (zpow_natCast _ _).symm
    _ ≤ 10 ^ (place - 1) := zpow_le_zpow_right₀ (by norm_num) hpower

/-- What starts further behind the point than the least unit is rounded to nothing. -/
theorem Format.rounds_of_small {place : Int} (hsmall : place < -((f.scale : Int) + 1))
    (h : v ≤ 10 ^ place) : f.Rounds v 0 := by
  refine Format.rounds_zero (h.trans ?_)
  rw [f.halfway_zero]
  calc (10 : ℚ) ^ place ≤ 10 ^ (-((f.scale + 1 : Nat) : Int)) :=
        zpow_le_zpow_right₀ (by norm_num) (by omega)
    _ = 1 / 10 ^ (f.scale + 1) := by rw [zpow_neg, zpow_natCast, one_div]
    _ ≤ 1 / 2 ^ (f.scale + 1) := by gcongr; norm_num

/-- **A decimal is rounded**, however large or small its power of ten. -/
theorem rounds_ofDecimal (negative : Bool) (significand : Nat) (exponent : Int) :
    f.Rounds (significand * 10 ^ exponent)
      (ofDecimal negative significand exponent : Binary f).code := by
  unfold ofDecimal
  dsimp only
  split
  next hzero =>
    refine Format.rounds_zero ?_
    rw [hzero, Nat.cast_zero, zero_mul, f.halfway_zero]
    positivity
  next hzero =>
    have hleast := le_decimal (Nat.pos_of_ne_zero hzero) exponent
    have hmost := decimal_lt significand exponent
    -- the number of digits is that of the text
    change (_ : ℚ) < 10 ^ (((Nat.toDigits 10 significand).length : Int) + exponent) at hmost
    change (10 : ℚ) ^ (((Nat.toDigits 10 significand).length : Int) + exponent - 1) ≤ _ at hleast
    split
    next hlarge => exact Format.rounds_of_large hlarge hleast
    next =>
      split
      next hsmall => exact Format.rounds_of_small hsmall hmost.le
      next =>
        have hratio := Decimal.value_eq ⟨significand, exponent⟩
        rw [Decimal.value] at hratio
        rw [hratio]
        exact rounds_ofRatio (Nat.pow_pos (by decide)) negative

/-! ## Order -/

/-- The number that a value stands for. -/
def number (x : Binary f) : ℚ := if x.negative then -x.amount else x.amount

theorem Format.value_zero (f : Format) : f.value 0 = 0 := by simp [Format.value, Format.units]

/-- Codes with signs are in the order of the magnitudes with these signs. -/
theorem Format.signed_le_iff (f : Format) (p q : Bool) (a b : Nat) :
    (if p then -(a : Int) else a) ≤ (if q then -(b : Int) else b) ↔
      (if p then -f.value a else f.value a) ≤ (if q then -f.value b else f.value b) := by
  have hmono := f.value_strictMono
  have hzero := f.value_zero
  have ha : 0 ≤ f.value a := hzero ▸ hmono.monotone (Nat.zero_le a)
  have hb : 0 ≤ f.value b := hzero ▸ hmono.monotone (Nat.zero_le b)
  cases p with
  | false =>
    cases q with
    | false =>
      simp only [Bool.false_eq_true, if_false, hmono.le_iff_le]
      omega
    | true =>
      -- a negative number is not below one from zero on, unless both are zero
      simp only [Bool.false_eq_true, if_false, if_true]
      constructor
      · intro h
        obtain ⟨rfl, rfl⟩ : a = 0 ∧ b = 0 := by omega
        rw [hzero, neg_zero]
      · intro h
        have hnone : ∀ c, f.value c = 0 → c = 0 := fun c hc => hmono.injective (hc.trans hzero.symm)
        have := hnone a (by linarith)
        have := hnone b (by linarith)
        omega
  | true =>
    cases q with
    | false =>
      simp only [Bool.false_eq_true, if_false, if_true]
      exact ⟨fun _ => by linarith, fun _ => by omega⟩
    | true =>
      simp only [if_true, neg_le_neg_iff, hmono.le_iff_le]
      omega

/-- **Values are compared as numbers.** -/
theorem le_iff {x y : Binary f} (hx : x.isNaN = false) (hy : y.isNaN = false) :
    x.le y = true ↔ x.number ≤ y.number := by
  rw [le, hx, hy]
  simp only [Bool.not_false, Bool.true_and, decide_eq_true_eq]
  exact f.signed_le_iff x.negative y.negative x.code y.code

theorem isFinite_eq_false_of_isNaN {x : Binary f} (h : x.isNaN = true) : x.isFinite = false :=
  decide_eq_false (Nat.lt_asymm (of_decide_eq_true h))

theorem isNaN_eq_false_of_isFinite {x : Binary f} (h : x.isFinite = true) : x.isNaN = false :=
  decide_eq_false (Nat.lt_asymm (of_decide_eq_true h))

end CavityConsole.Binary

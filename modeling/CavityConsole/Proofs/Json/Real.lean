import CavityConsole.Proofs.Decimal.Scaling
import CavityConsole.Proofs.Json.DecimalText

/-!
# Real numbers that are printed and read again

A real number of a document is printed with its shortest digits and read by scaling them
(`reread`). The digits stand for the number, but scaling rounds more than once, so another number
may be read. It is next to the first one and has its sign, and no finite number is read as nothing
(`reread_spec`). Where the significand and the power of ten need no rounding, the number itself is
read (`code_reading`).

**What is not established here.** How often a number is changed, and whether printing and reading it
over and over comes to rest.
-/

namespace CavityConsole.Json

open Binary Decimal

/-- The decimal that a real number is printed as, without its sign. -/
def decimal (x : Double) : Decimal :=
  if x.isZero then ⟨0, 0⟩ else shortest Format.double x.code

/-- The significand and the power of ten that a printed real number is read as. -/
def taken (x : Double) : Nat × Int := layout.taken (decimal x)

/-- **What a printed real number is read as.** -/
def reread (x : Double) : Double :=
  (scaled (taken x).1 (taken x).2).elim x fun y => if x.negative then -y else y

/-! ## The shortest decimal of a real number -/

theorem units_lt_of_le {code : Nat} (h : code ≤ Format.double.infinity) :
    Format.double.units code < 10 ^ 309 * 2 ^ Format.double.scale := by
  have hinfinity : Format.double.units Format.double.infinity <
      10 ^ 309 * 2 ^ Format.double.scale := by decide +kernel
  exact (Format.double.units_strictMono.monotone h).trans_lt hinfinity

theorem value_lt_of_le {code : Nat} (h : code ≤ Format.double.infinity) :
    Format.double.value code < 10 ^ 309 := by
  rw [Format.value, div_lt_iff₀ (by positivity)]
  exact_mod_cast units_lt_of_le h

/-- A positive real number is at least the least unit. -/
theorem unit_le_value {code : Nat} (h : 0 < code) : 1 / 2 ^ 1074 ≤ Format.double.value code := by
  have hone : (1 : ℚ) ≤ Format.double.units code := by exact_mod_cast Format.double.units_pos h
  rw [Format.value]
  gcongr
  · norm_num
  · decide

section

variable {code : Nat} (hcode : 0 < code) (hfinite : code < Format.double.infinity)
include hcode hfinite

/-- The shortest decimal of a positive real number has few digits and an exponent within range. -/
theorem shortest_double :
    Represents Format.double code (shortest Format.double code) ∧
      0 < (shortest Format.double code).digits ∧
      (shortest Format.double code).digits ≤ 10 ^ 18 ∧
      -616 ≤ (shortest Format.double code).exponent ∧
      (shortest Format.double code).exponent ≤ 308 := by
  have hunits := Format.double.units_pos hcode
  obtain ⟨hrepresents, hdigits, hlow⟩ :=
    shortest_spec hcode (by decide : 2 ^ (Format.double.precision + 1) ≤ 10 ^ 17) (by decide)
  obtain ⟨hpos, -⟩ := shortest_bounds hunits (units_lt_of_le hfinite.le)
  generalize shortest Format.double code = d at *
  refine ⟨hrepresents, hpos, hdigits, ?_, ?_⟩
  · have hnat : 2 ^ 1074 ≤ 10 ^ 324 := by decide +kernel
    have hleast : (10 : ℚ) ^ (-324 : Int) ≤ 1 / 2 ^ 1074 := by
      have hcast : (2 : ℚ) ^ 1074 ≤ 10 ^ 324 := by exact_mod_cast hnat
      rw [zpow_neg, zpow_ofNat, ← one_div]
      exact one_div_le_one_div_of_le (by positivity) hcast
    have hexponent := (zpow_lt_zpow_iff_right₀ (by norm_num : (1 : ℚ) < 10)).mp
      ((hleast.trans (unit_le_value hcode)).trans_lt hlow)
    omega
  · have hbelow : d.value < 10 ^ (309 : Int) := by
      have hthis := value_lt_of_le hfinite.le
      have hnext := value_lt_of_le (Nat.succ_le_of_lt hfinite)
      calc d.value ≤ Format.double.halfway code := hrepresents.high
        _ < (10 ^ 309 + 10 ^ 309) / 2 := div_lt_div_of_pos_right (add_lt_add hthis hnext) two_pos
        _ = 10 ^ (309 : Int) := by rw [add_self_div_two, zpow_ofNat]
    have hone : (1 : ℚ) ≤ d.digits := by exact_mod_cast hpos
    have hpower : (10 : ℚ) ^ d.exponent ≤ d.value :=
      le_mul_of_one_le_left (ten_zpow_pos _).le hone
    have hexponent := (zpow_lt_zpow_iff_right₀ (by norm_num : (1 : ℚ) < 10)).mp
      (hpower.trans_lt hbelow)
    omega

omit hcode hfinite in
theorem taken_of_bounds {d : Decimal} (hpos : 0 < d.digits) (hdigits : d.digits ≤ 10 ^ 18)
    (hleast : -616 ≤ d.exponent) (hmost : d.exponent ≤ 308) :
    0 < (layout.taken d).1 ∧ (layout.taken d).1 < 2 ^ 64 ∧
      -616 ≤ (layout.taken d).2 ∧ (layout.taken d).2 ≤ 308 := by
  unfold Layout.taken
  split
  next h =>
    have hwhole := whole_digits_lt 15 h.1 h.2.2
    refine ⟨Nat.mul_pos hpos (Nat.pow_pos (by decide)), ?_, ?_, ?_⟩
    · exact hwhole.trans (by norm_num)
    · norm_num
    · norm_num
  next => exact ⟨hpos, hdigits.trans_lt (by norm_num), hleast, hmost⟩

theorem taken_bounds :
    0 < (layout.taken (shortest Format.double code)).1 ∧
      (layout.taken (shortest Format.double code)).1 < 2 ^ 64 ∧
      -616 ≤ (layout.taken (shortest Format.double code)).2 ∧
      (layout.taken (shortest Format.double code)).2 ≤ 308 := by
  obtain ⟨-, hpos, hdigits, hleast, hmost⟩ := shortest_double hcode hfinite
  exact taken_of_bounds hpos hdigits hleast hmost

/-! ## The reading is finite -/

omit hcode hfinite in
/-- The sixteen largest numbers are read as finite ones. -/
theorem isFinite_product_of_largest :
    ((List.range 16).all fun j =>
      let t := layout.taken (shortest Format.double (Format.double.infinity - 16 + j))
      ((ofNat t.1 : Double).mul (power t.2.toNat)).isFinite) = true := by
  decide +kernel

omit hcode hfinite in
/-- The steps of the largest numbers. -/
theorem exists_largest_step :
    ∃ step, 2 ^ Format.double.scale ≤ step ∧
      Format.double.units (Format.double.infinity - 17) = 9007199254740975 * step ∧
      Format.double.units (Format.double.infinity - 1) = 9007199254740991 * step :=
  ⟨2 ^ 2045, by decide +kernel⟩

/-- Below the sixteen largest numbers there is room for the errors of the reading. -/
theorem value_shortest_le (hbelow : code < Format.double.infinity - 16) :
    (shortest Format.double code).value ≤ largest * (1 - 8 / 2 ^ 53) := by
  obtain ⟨hrepresents, -⟩ := shortest_double hcode hfinite
  obtain ⟨hnear, -⟩ := abs_sub_le_iff.mp (hrepresents.near hcode)
  obtain ⟨step, hstep, hlast, hlargest⟩ := exists_largest_step
  have hscale : (0 : ℚ) < 2 ^ Format.double.scale := by positivity
  have hone : (1 : ℚ) ≤ step / 2 ^ Format.double.scale := by
    rw [one_le_div₀ hscale]
    exact_mod_cast hstep
  have hvalue : Format.double.value code ≤
      9007199254740975 * (step / 2 ^ Format.double.scale) := by
    have hunits : Format.double.units code ≤ 9007199254740975 * step :=
      hlast ▸ Format.double.units_strictMono.monotone (by omega)
    rw [Format.value, ← mul_div_assoc]
    gcongr
    exact_mod_cast hunits
  have hdust : (1 : ℚ) / 2 ^ (Format.double.scale + 1) ≤ 1 :=
    div_le_one_of_le₀ (one_le_pow₀ (by norm_num)) (by positivity)
  have hprecision : (2 : ℚ) ^ Format.double.precision = 2 ^ 53 := rfl
  rw [hprecision] at hnear
  rw [largest, Format.value, hlargest, Nat.cast_mul, mul_div_assoc]
  generalize (step / 2 ^ Format.double.scale : ℚ) = top at *
  generalize (1 / 2 ^ (Format.double.scale + 1) : ℚ) = dust at *
  push_cast
  linarith

theorem isFinite_product_taken (hnonneg : 0 ≤ (layout.taken (shortest Format.double code)).2) :
    ((ofNat (layout.taken (shortest Format.double code)).1 : Double).mul
      (power (layout.taken (shortest Format.double code)).2.toNat)).isFinite = true := by
  obtain ⟨hpos, hfits, -, hmost⟩ := taken_bounds hcode hfinite
  rcases Nat.lt_or_ge code (Format.double.infinity - 16) with hbelow | habove
  · refine isFinite_product hpos hfits (by unfold largestPower; omega) ?_
    have hvalue := value_taken layout (shortest Format.double code)
    rw [← Int.toNat_of_nonneg hnonneg, zpow_natCast] at hvalue
    rw [hvalue]
    exact value_shortest_le hcode hfinite hbelow
  · have hall := List.all_eq_true.mp isFinite_product_of_largest
      (code - (Format.double.infinity - 16)) (List.mem_range.mpr (by omega))
    rwa [Nat.add_sub_cancel' habove] at hall

theorem exists_reading :
    ∃ y, scaled (layout.taken (shortest Format.double code)).1
        (layout.taken (shortest Format.double code)).2 = some y ∧
      ReadAs (shortest Format.double code).value y := by
  obtain ⟨hpos, hfits, hleast, hmost⟩ := taken_bounds hcode hfinite
  rw [← value_taken layout]
  exact exists_scaled hpos hfits hleast hmost (isFinite_product_taken hcode hfinite)

/-! ## What is read -/

omit hcode hfinite in
theorem two_halves (n : Nat) : (1 : ℚ) / 2 ^ n = 2 * (1 / 2 ^ (n + 1)) := by
  rw [pow_succ']
  field_simp

/-- **What is read is next to what was printed.** -/
theorem abs_reading_sub_le {y : Double}
    (hread : ReadAs (shortest Format.double code).value y) :
    |y.amount - Format.double.value code| ≤
      Format.double.value code / 2 ^ 49 + 1 / 2 ^ 1074 := by
  obtain ⟨hrepresents, -⟩ := shortest_double hcode hfinite
  obtain ⟨-, -, near, hwithin, hrounded⟩ := hread
  have hprinted : |(shortest Format.double code).value - Format.double.value code| ≤
      Format.double.value code / 2 ^ 53 + 1 / 2 ^ 1075 := hrepresents.near hcode
  have hunit := unit_le_value hcode
  have htwo : (1 : ℚ) / 2 ^ 1074 = 2 * (1 / 2 ^ 1075) := two_halves 1074
  obtain ⟨hlow, hhigh⟩ := hwithin
  rw [htwo] at hunit ⊢
  generalize (1 / 2 ^ 1075 : ℚ) = dust at *
  generalize (shortest Format.double code).value = d at *
  generalize Format.double.value code = v at *
  generalize y.amount = w at *
  obtain ⟨hprinted, hprinted'⟩ := abs_sub_le_iff.mp hprinted
  obtain ⟨hrounded, hrounded'⟩ := abs_sub_le_iff.mp hrounded
  rw [abs_sub_le_iff]
  constructor
  · linarith
  · linarith

/-- **Where nothing is rounded before, the number itself is read.** -/
theorem code_reading {y : Double}
    (hscaled : scaled (layout.taken (shortest Format.double code)).1
      (layout.taken (shortest Format.double code)).2 = some y)
    (hfew : (layout.taken (shortest Format.double code)).1 ≤ 2 ^ 53)
    (hsmall : (layout.taken (shortest Format.double code)).2.natAbs ≤ 22) : y.code = code := by
  obtain ⟨hrepresents, -⟩ := shortest_double hcode hfinite
  obtain ⟨hpos, -⟩ := taken_bounds hcode hfinite
  have hvalue := value_taken layout (shortest Format.double code)
  obtain ⟨hlow, hhigh, htie, -⟩ := hrepresents
  generalize layout.taken (shortest Format.double code) = t at *
  obtain ⟨significand, exponent⟩ := t
  dsimp only at *
  obtain ⟨hread, -⟩ := readOnce_spec hpos hfew (by omega : -53 ≤ exponent) (by omega)
  rw [scaled_eq_readOnce (by unfold largestPower; omega) hread] at hscaled
  obtain rfl := Option.some.inj hscaled
  have hexact := amount_ofNat hfew
  rw [← hvalue, scale_eq] at hlow hhigh htie
  unfold readOnce
  split
  next hneg =>
    rw [if_pos hneg, ← hexact, ← amount_power hsmall] at hlow hhigh htie
    exact code_div_of_between (amount_power_pos (hsmall.trans (by decide))) hcode hfinite hlow
      hhigh htie
  next hneg =>
    have hpower : exponent.toNat ≤ 22 := by omega
    rw [if_neg hneg, ← hexact, ← amount_power hpower] at hlow hhigh htie
    exact code_mul_of_between hcode hfinite hlow hhigh htie

end

/-! ## Real numbers -/

theorem taken_of_zero {x : Double} (h : x.isZero = true) : taken x = (0, -1) := by
  rw [taken, decimal, if_pos h]
  rfl

theorem taken_of_pos {x : Double} (h : x.isZero = false) :
    taken x = layout.taken (shortest Format.double x.code) := by
  rw [taken, decimal, if_neg (by simp [h])]

theorem eq_of_parts {x y : Double} (hnegative : x.negative = y.negative)
    (hcode : x.code = y.code) : x = y := by
  obtain ⟨negative, code, hlt⟩ := x
  obtain ⟨sign, magnitude, hlt'⟩ := y
  dsimp only at hnegative hcode
  subst hnegative hcode
  rfl

theorem scaled_zero : scaled 0 (-1) = some (zero false) := by
  decide +kernel

/-- What is read of a finite number without its sign. -/
theorem exists_magnitude {x : Double} (h : x.isFinite = true) :
    ∃ y, scaled (taken x).1 (taken x).2 = some y ∧ y.negative = false ∧ y.isFinite = true ∧
      |y.amount - x.amount| ≤ x.amount / 2 ^ 49 + 1 / 2 ^ 1074 ∧
      ((taken x).1 ≤ 2 ^ 53 → (taken x).2.natAbs ≤ 22 → y.code = x.code) := by
  have hfinite : x.code < Format.double.infinity := of_decide_eq_true h
  cases hzero : x.isZero with
  | true =>
    have hcode : (zero false : Double).code = x.code := (beq_iff_eq.mp hzero).symm
    rw [taken_of_zero hzero]
    refine ⟨zero false, scaled_zero, rfl, rfl, ?_, fun _ _ => hcode⟩
    rw [amount, hcode, amount, sub_self, abs_zero]
    exact add_nonneg (div_nonneg (amount_nonneg x) (by positivity)) (by positivity)
  | false =>
    have hpos : 0 < x.code := Nat.pos_of_ne_zero fun hnone => by simp [isZero, hnone] at hzero
    obtain ⟨y, hscaled, hread⟩ := exists_reading hpos hfinite
    rw [taken_of_pos hzero]
    exact ⟨y, hscaled, hread.positive, hread.finite, abs_reading_sub_le hpos hfinite hread,
      code_reading hpos hfinite hscaled⟩

theorem reread_of_scaled {x y : Double} (h : scaled (taken x).1 (taken x).2 = some y) :
    reread x = if x.negative then -y else y := by
  rw [reread, h, Option.elim_some]

/-- The sign and the magnitude of a reading. -/
theorem reread_parts {x y : Double} (h : scaled (taken x).1 (taken x).2 = some y)
    (hy : y.negative = false) :
    (reread x).negative = x.negative ∧ (reread x).code = y.code := by
  rw [reread_of_scaled h]
  cases x.negative with
  | false => exact ⟨hy, rfl⟩
  | true => exact ⟨congrArg not hy, rfl⟩

/-- **A finite number is read as a finite one of its sign that is next to it**, at most one part in
`2 ^ 49` and a least unit away. It is read as itself where nothing is rounded before the last step:
when it is a zero of either sign, or printed with a significand of 53 bits and a small power of
ten. -/
theorem reread_spec {x : Double} (h : x.isFinite = true) :
    (reread x).isFinite = true ∧ (reread x).negative = x.negative ∧
      |(reread x).amount - x.amount| ≤ x.amount / 2 ^ 49 + 1 / 2 ^ 1074 ∧
      ((taken x).1 ≤ 2 ^ 53 → (taken x).2.natAbs ≤ 22 → reread x = x) := by
  obtain ⟨y, hscaled, hpositive, hfinite, hclose, hexact⟩ := exists_magnitude h
  obtain ⟨hnegative, hcode⟩ := reread_parts hscaled hpositive
  refine ⟨?_, hnegative, ?_, fun hfew hsmall => ?_⟩
  · rw [isFinite, hcode]
    exact hfinite
  · rw [amount, hcode]
    exact hclose
  · exact eq_of_parts hnegative (hcode.trans (hexact hfew hsmall))

/-! ## The text of a real number -/

/-- The decimal of a finite number is a zero or has few digits. -/
theorem decimal_cases {x : Double} (h : x.isFinite = true) :
    decimal x = ⟨0, 0⟩ ∨ 0 < (decimal x).digits ∧ (decimal x).digits ≤ 10 ^ 18 := by
  unfold decimal
  split
  next => exact .inl rfl
  next hzero =>
    have hpos : 0 < x.code := Nat.pos_of_ne_zero fun hnone => hzero (beq_iff_eq.mpr hnone)
    obtain ⟨-, hdigits, hfew, -⟩ := shortest_double hpos (of_decide_eq_true h)
    exact .inr ⟨hdigits, hfew⟩

/-- What a finite number is printed as is a number of the grammar. -/
theorem wellFormed_printed {x : Double} (h : x.isFinite = true) (negative : Bool) :
    (layout.numeral negative (decimal x)).WellFormed := by
  rcases decimal_cases h with hzero | ⟨hpos, -⟩
  · rw [hzero]
    exact wellFormed_zeroNumeral negative
  · exact wellFormed_numeral layout negative hpos

theorem scientific_printed {x : Double} (h : x.isFinite = true) (negative : Bool) :
    (layout.numeral negative (decimal x)).scientific = taken x := by
  have hfew : (decimal x).digits ≤ 10 ^ 18 := by
    rcases decimal_cases h with hzero | ⟨-, hfew⟩
    · rw [hzero]
      exact Nat.zero_le _
    · exact hfew
  refine scientific_numeral_eq layout negative (hfew.trans_lt (by decide)) fun hwhole hplace => ?_
  exact (whole_digits_lt 15 hwhole hplace).trans (by decide)

theorem text_eq (x : Double) : layout.text x = (layout.numeral x.negative (decimal x)).text := by
  have hzero : layout.decimalText ⟨0, 0⟩ = ['0', '.', '0'] := by decide
  rw [Numeral.text, negative_numeral, magnitude_numeral, Layout.text, decimal,
    apply_ite layout.decimalText, hzero]

/-- **The text of a finite number is read as told.** -/
theorem fragment_realText (depth : Nat) {x : Double} (h : x.isFinite = true) :
    Fragment depth (layout.text x) (.number (.real (reread x))) := by
  obtain ⟨y, hscaled, -⟩ := exists_magnitude h
  have hreads : (layout.numeral x.negative (decimal x)).Reads (.real (reread x)) := by
    have hread := Numeral.Reads.real (not_isInteger_numeral layout x.negative (decimal x))
      ((scientific_printed h x.negative).symm ▸ hscaled)
    rwa [negative_numeral, ← reread_of_scaled hscaled] at hread
  rw [text_eq]
  exact fragment_numeral depth (wellFormed_printed h _) hreads

end CavityConsole.Json

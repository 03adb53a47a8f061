import CavityConsole.Proofs.Binary.Value
import CavityConsole.Proofs.Decimal.Scientific

/-!
# A shortest decimal stands for its value

The decimal that the search takes lies in the interval of its value and within one step of its grid
from the value (`Represents`). The search cannot fail: a grid whose step is less than the way from
the value to the lower end has a multiple in the interval (`onGrid_isSome_of_le`), and it is not
many grids below the first one. That also bounds the digits (`shortest_spec`).
-/

namespace CavityConsole.Decimal

open Binary

/-- The number that a decimal stands for. -/
def value (d : Decimal) : ℚ := d.digits * 10 ^ d.exponent

theorem ten_zpow (e : Int) : (10 : ℚ) ^ e = 10 ^ e.toNat / 10 ^ (-e).toNat := by
  rcases le_total 0 e with h | h
  · have hnone : (-e).toNat = 0 := by omega
    rw [hnone, pow_zero, div_one, ← zpow_natCast, Int.toNat_of_nonneg h]
  · rw [Int.toNat_of_nonpos h, pow_zero, ← zpow_natCast, Int.toNat_of_nonneg (by omega), zpow_neg,
      one_div, inv_inv]

theorem ten_zpow_pos (e : Int) : (0 : ℚ) < 10 ^ e := zpow_pos (by norm_num) e

theorem value_eq (d : Decimal) :
    d.value = (d.digits * 10 ^ d.exponent.toNat : Nat) / (10 ^ (-d.exponent).toNat : Nat) := by
  rw [value, ten_zpow]
  push_cast
  ring

/-! ## Zeros at the end -/

theorem value_trim (room : Nat) (d : Decimal) : (trim room d).value = d.value := by
  induction room generalizing d with
  | zero => rfl
  | succ room ih =>
    rw [trim]
    split
    next h =>
      rw [ih, value, value, zpow_add_one₀ (by norm_num)]
      have hdigits : d.digits = d.digits / 10 * 10 := by omega
      conv_rhs => rw [hdigits]
      push_cast
      ring
    next => rfl

/-- Taking zeros off the end leaves fewer digits on a coarser grid. -/
theorem trim_coarser (room : Nat) (d : Decimal) :
    d.exponent ≤ (trim room d).exponent ∧ (trim room d).digits ≤ d.digits := by
  induction room generalizing d with
  | zero => exact ⟨le_rfl, le_rfl⟩
  | succ room ih =>
    rw [trim]
    split
    next =>
      obtain ⟨hexponent, hdigits⟩ := ih ⟨d.digits / 10, d.exponent + 1⟩
      dsimp only at hexponent hdigits
      exact ⟨by omega, by omega⟩
    next => exact ⟨le_rfl, le_rfl⟩

/-! ## The logarithm -/

/-- The logarithm of a ratio is the power of ten at or below it. -/
theorem floorLog10_spec {num den : Nat} (hnum : 0 < num) (hden : 0 < den) :
    (10 : ℚ) ^ floorLog10 num den ≤ num / den ∧
      (num : ℚ) / den < 10 ^ (floorLog10 num den + 1) := by
  have hden' : (0 : ℚ) < den := Nat.cast_pos.mpr hden
  constructor
  · have hle := floorLog10_le hnum hden
    rw [ten_zpow, div_le_div_iff₀ (by positivity) hden']
    qify at hle
    linarith
  · unfold floorLog10
    split
    next hle =>
      have hdigits := digitCount_pos (num / den)
      have hlt : num < 10 ^ digitCount (num / den) * den :=
        (Nat.div_lt_iff_lt_mul hden).mp (lt_pow_digitCount _)
      rw [div_lt_iff₀ hden', ← Nat.cast_succ, Nat.succ_eq_add_one, Nat.sub_add_cancel hdigits,
        zpow_natCast]
      exact_mod_cast hlt
    next hlt =>
      have hdigits := digitCount_pos ((den - 1) / num)
      have hquotient : 0 < (den - 1) / num := Nat.div_pos (by omega) hnum
      have hle := (Nat.le_div_iff_mul_le hnum).mp (pow_digitCount_le hquotient)
      have hexponent : -(digitCount ((den - 1) / num) : Int) + 1 =
          -(digitCount ((den - 1) / num) - 1 : Nat) := by omega
      rw [hexponent, zpow_neg, zpow_natCast, ← one_div, div_lt_div_iff₀ hden' (by positivity)]
      have hless : 10 ^ (digitCount ((den - 1) / num) - 1) * num < den := by omega
      qify at hless
      linarith

/-! ## The interval of a code -/

section

variable {i : Interval} (hone : 0 < i.one)
include hone

/-- The multiple of a step at or below the value. -/
theorem Interval.floor_spec (e : Int) :
    (i.floor e : ℚ) * 10 ^ e ≤ i.middle / i.one ∧
      (i.middle : ℚ) / i.one < (i.floor e + 1) * 10 ^ e := by
  have hone' : (0 : ℚ) < i.one := Nat.cast_pos.mpr hone
  have hstep : 0 < 10 ^ e.toNat * i.one := Nat.mul_pos (Nat.pow_pos (by decide)) hone
  have hle : i.floor e * (10 ^ e.toNat * i.one) ≤ i.middle * 10 ^ (-e).toNat :=
    Nat.div_mul_le_self _ _
  have hlt : i.middle * 10 ^ (-e).toNat < (i.floor e + 1) * (10 ^ e.toNat * i.one) :=
    (Nat.div_lt_iff_lt_mul hstep).mp (Nat.lt_succ_self _)
  rw [ten_zpow, mul_div_assoc', mul_div_assoc', div_le_div_iff₀ (by positivity) hone',
    div_lt_div_iff₀ hone' (by positivity)]
  qify at hle hlt
  constructor
  · linarith
  · linarith

/-- Both neighbours of the value on a grid are within a step of it. -/
theorem abs_neighbours_sub_le (e : Int) :
    ∀ d, d = (i.neighbours e).1 ∨ d = (i.neighbours e).2 →
      d.exponent = e ∧ d.digits ≤ i.floor e + 1 ∧ |d.value - i.middle / i.one| ≤ 10 ^ e := by
  obtain ⟨hle, hlt⟩ := i.floor_spec hone e
  have hstep := ten_zpow_pos e
  have hlower : |value ⟨i.floor e, e⟩ - i.middle / i.one| ≤ 10 ^ e := by
    rw [value, abs_sub_le_iff]
    constructor
    · linarith
    · linarith
  have hupper : |value ⟨i.floor e + 1, e⟩ - i.middle / i.one| ≤ 10 ^ e := by
    rw [value, abs_sub_le_iff]
    push_cast
    constructor
    · linarith
    · linarith
  rcases neighbours_cases i e with hcase | hcase
  · rw [hcase]
    rintro d (rfl | rfl)
    · exact ⟨rfl, Nat.le_succ _, hlower⟩
    · exact ⟨rfl, le_rfl, hupper⟩
  · rw [hcase]
    rintro d (rfl | rfl)
    · exact ⟨rfl, le_rfl, hupper⟩
    · exact ⟨rfl, Nat.le_succ _, hlower⟩

theorem Interval.contains_iff (d : Decimal) :
    i.contains d = true ↔
      if i.closed then (i.low : ℚ) / i.one ≤ d.value ∧ d.value ≤ i.high / i.one
      else (i.low : ℚ) / i.one < d.value ∧ d.value < i.high / i.one := by
  have hone' : (0 : ℚ) < i.one := Nat.cast_pos.mpr hone
  have hstep : (0 : ℚ) < (10 ^ (-d.exponent).toNat : Nat) := by positivity
  unfold Interval.contains
  rw [value_eq, div_le_div_iff₀ hone' hstep, div_le_div_iff₀ hstep hone',
    div_lt_div_iff₀ hone' hstep, div_lt_div_iff₀ hstep hone']
  split
  · norm_cast
    exact decide_eq_true_iff
  · norm_cast
    exact decide_eq_true_iff

end

/-! ## The search -/

/-- What stands for the value on a grid is one of the neighbours, and the interval contains it. -/
theorem onGrid_eq_some {i : Interval} {e : Int} {d : Decimal} (h : i.onGrid e = some d) :
    (d = (i.neighbours e).1 ∨ d = (i.neighbours e).2) ∧ i.contains d = true := by
  unfold Interval.onGrid at h
  dsimp only at h
  split at h
  next hnearer =>
    cases h
    exact ⟨.inl rfl, hnearer⟩
  next =>
    split at h
    next hfarther =>
      cases h
      exact ⟨.inr rfl, hfarther⟩
    next => cases h

/-- A grid with a multiple in the interval right below the value has a decimal that stands for
it. -/
theorem onGrid_isSome {i : Interval} {e : Int} (h : i.contains ⟨i.floor e, e⟩ = true) :
    (i.onGrid e).isSome = true := by
  unfold Interval.onGrid
  rcases neighbours_cases i e with hcase | hcase
  · simp [hcase, h]
  · simp only [hcase, h, if_true]
    split <;> rfl

/-- The search ends at the first grid that has a decimal for the value, if it comes to one. -/
theorem search_spec (i : Interval) {grid : Int} (hgrid : (i.onGrid grid).isSome = true)
    {exponent : Int} (hle : grid ≤ exponent) {room : Nat} (hroom : exponent - room < grid) :
    ∃ e, grid ≤ e ∧ e ≤ exponent ∧ i.onGrid e = some (i.search exponent room) := by
  induction room generalizing exponent with
  | zero => omega
  | succ room ih =>
    rw [Interval.search]
    cases hfound : i.onGrid exponent with
    | some d => exact ⟨exponent, hle, le_rfl, hfound⟩
    | none =>
      have hcoarser : grid ≠ exponent := by
        rintro rfl
        rw [hfound] at hgrid
        cases hgrid
      obtain ⟨e, hlow, hhigh, he⟩ := ih (by omega : grid ≤ exponent - 1) (by omega)
      exact ⟨e, hlow, by omega, he⟩

/-! ## The shortest decimal -/

/-- A decimal that is read as a code: it lies between the halfway points of the code, on one of them
only when the code is even, and no more than a step of its last digit from the code's own number. -/
structure Represents (f : Format) (code : Nat) (d : Decimal) : Prop where
  low : f.halfway (code - 1) ≤ d.value
  high : d.value ≤ f.halfway code
  tie : f.halfway (code - 1) = d.value ∨ d.value = f.halfway code → code % 2 = 0
  close : |d.value - f.value code| ≤ 10 ^ d.exponent

section

variable {f : Format} {code : Nat} (hcode : 0 < code)

theorem middle_div_one (f : Format) (code : Nat) :
    ((Interval.ofCode f code).middle : ℚ) / (Interval.ofCode f code).one = f.value code := by
  show ((2 * f.units code : Nat) : ℚ) / (2 ^ (f.scale + 1) : Nat) = _
  rw [Format.value]
  push_cast
  rw [pow_succ]
  field_simp

theorem high_div_one (f : Format) (code : Nat) :
    ((Interval.ofCode f code).high : ℚ) / (Interval.ofCode f code).one = f.halfway code := by
  show ((f.units code + f.units (code + 1) : Nat) : ℚ) / (2 ^ (f.scale + 1) : Nat) = _
  rw [f.halfway_eq, pow_succ']
  push_cast
  rfl

include hcode

theorem low_div_one :
    ((Interval.ofCode f code).low : ℚ) / (Interval.ofCode f code).one = f.halfway (code - 1) := by
  have hlow := high_div_one f (code - 1)
  rw [← hlow]
  unfold Interval.ofCode
  rw [Nat.sub_add_cancel hcode]

theorem between_of_contains {d : Decimal} (h : (Interval.ofCode f code).contains d = true) :
    f.halfway (code - 1) ≤ d.value ∧ d.value ≤ f.halfway code ∧
      (f.halfway (code - 1) = d.value ∨ d.value = f.halfway code → code % 2 = 0) := by
  have hone : 0 < (Interval.ofCode f code).one := Nat.two_pow_pos _
  rw [Interval.contains_iff hone, low_div_one hcode, high_div_one] at h
  split at h
  next hclosed => exact ⟨h.1, h.2, fun _ => beq_iff_eq.mp hclosed⟩
  next =>
    refine ⟨h.1.le, h.2.le, ?_⟩
    rintro (htie | htie)
    · exact absurd htie h.1.ne
    · exact absurd htie h.2.ne

/-- From a code down to its lower halfway point it is half a step. -/
theorem value_sub_halfway :
    f.value code - f.halfway (code - 1) = f.step (code - 1) / (2 * 2 ^ f.scale) := by
  have hunits := f.units_succ (code - 1)
  rw [Nat.sub_add_cancel hcode] at hunits
  rw [f.halfway_eq, Nat.sub_add_cancel hcode, Format.value, hunits]
  push_cast
  field_simp
  ring

omit hcode in
/-- From a code up to its upper halfway point it is half a step. -/
theorem halfway_sub_value (f : Format) (code : Nat) :
    f.halfway code - f.value code = f.step code / (2 * 2 ^ f.scale) := by
  rw [f.halfway_eq, Format.value, f.units_succ]
  push_cast
  field_simp
  ring

/-- A decimal is close to the code that it is read as. -/
theorem Represents.near {d : Decimal} (h : Represents f code d) :
    |d.value - f.value code| ≤ f.value code / 2 ^ f.precision + 1 / 2 ^ (f.scale + 1) := by
  have hhalf := f.half_step_le code
  have habove := halfway_sub_value f code
  have hbelow := value_sub_halfway (f := f) hcode
  have hstep : (f.step (code - 1) : ℚ) ≤ f.step code :=
    Nat.cast_le.mpr (f.step_mono (Nat.sub_le code 1))
  have hless : (f.step (code - 1) : ℚ) / (2 * 2 ^ f.scale) ≤ f.step code / (2 * 2 ^ f.scale) := by
    gcongr
  rw [div_div] at hhalf
  obtain ⟨hlow, hhigh, -, -⟩ := h
  refine le_trans (abs_sub_le_iff.mpr ⟨?_, ?_⟩) hhalf
  · linarith
  · linarith

/-- A positive number has at most so many half steps. -/
theorem value_le :
    f.value code ≤ 2 ^ (f.precision + 1) * (f.value code - f.halfway (code - 1)) := by
  obtain ⟨n, hn, hprevious⟩ := f.exists_steps (code - 1)
  have hunits := f.units_succ (code - 1)
  rw [Nat.sub_add_cancel hcode, hprevious, ← Nat.succ_mul] at hunits
  have hle : f.units code ≤ 2 ^ f.precision * f.step (code - 1) :=
    hunits.trans_le (Nat.mul_le_mul_right _ hn)
  rw [value_sub_halfway hcode, Format.value, pow_succ]
  qify at hle
  calc (f.units code : ℚ) / 2 ^ f.scale ≤ 2 ^ f.precision * f.step (code - 1) / 2 ^ f.scale := by
        gcongr
    _ = 2 ^ f.precision * 2 * (f.step (code - 1) / (2 * 2 ^ f.scale)) := by field_simp

/-- Some grid has a multiple between the lower halfway point of a code and its number. -/
theorem onGrid_isSome_of_le {e : Int}
    (h : (10 : ℚ) ^ e ≤ f.value code - f.halfway (code - 1)) :
    ((Interval.ofCode f code).onGrid e).isSome = true := by
  have hone : 0 < (Interval.ofCode f code).one := Nat.two_pow_pos _
  obtain ⟨hle, hlt⟩ := (Interval.ofCode f code).floor_spec hone e
  rw [middle_div_one] at hle hlt
  have habove : f.value code < f.halfway code := by
    have hunits := f.units_strictMono (Nat.lt_succ_self code)
    unfold Format.halfway Format.value
    rw [lt_div_iff₀ (by norm_num), mul_two]
    gcongr
  apply onGrid_isSome
  rw [Interval.contains_iff hone, low_div_one hcode, high_div_one, value]
  split
  · exact ⟨by linarith, by linarith⟩
  · exact ⟨by linarith, by linarith⟩

/-- **A shortest decimal is read as its code.** When so many more digits tell all magnitudes of the
format apart, the decimal has no more than these and one, and its last digit is that close to the
first. -/
theorem shortest_spec {more : Nat} (hmore : 2 ^ (f.precision + 1) ≤ 10 ^ more)
    (hroom : more < f.precision) :
    Represents f code (shortest f code) ∧ (shortest f code).digits ≤ 10 ^ (more + 1) ∧
      f.value code < 10 ^ ((shortest f code).exponent + more + 1) := by
  have hone : 0 < (Interval.ofCode f code).one := Nat.two_pow_pos _
  have hmiddle : 0 < (Interval.ofCode f code).middle :=
    Nat.mul_pos (by decide) (f.units_pos hcode)
  obtain ⟨hlog, hlog'⟩ := floorLog10_spec hmiddle hone
  rw [middle_div_one] at hlog hlog'
  unfold shortest
  dsimp only
  set i := Interval.ofCode f code
  set start := floorLog10 i.middle i.one
  -- so many grids below the first one, the step is less than the way to the lower end
  have hfine : (10 : ℚ) ^ (start - more) ≤ f.value code - f.halfway (code - 1) := by
    have hsteps := value_le (f := f) hcode
    have hmore' : (2 : ℚ) ^ (f.precision + 1) ≤ 10 ^ more := by exact_mod_cast hmore
    have hgap : 0 ≤ f.value code - f.halfway (code - 1) := by
      rw [value_sub_halfway hcode]
      positivity
    rw [zpow_sub₀ (by norm_num), zpow_natCast, div_le_iff₀ (by positivity)]
    calc (10 : ℚ) ^ start ≤ f.value code := hlog
      _ ≤ 2 ^ (f.precision + 1) * (f.value code - f.halfway (code - 1)) := hsteps
      _ ≤ 10 ^ more * (f.value code - f.halfway (code - 1)) := by gcongr
      _ = (f.value code - f.halfway (code - 1)) * 10 ^ more := mul_comm _ _
  obtain ⟨e, hlow, hhigh, hfound⟩ :=
    search_spec i (onGrid_isSome_of_le hcode hfine) (by omega : start - more ≤ start)
      (by omega : start - (f.precision : Int) < start - more)
  generalize i.search start f.precision = found at hfound ⊢
  obtain ⟨hneighbour, hcontains⟩ := onGrid_eq_some hfound
  obtain ⟨hexponent, hdigits, hclose⟩ := abs_neighbours_sub_le hone e found hneighbour
  obtain ⟨hends, hends', htie⟩ := between_of_contains hcode hcontains
  obtain ⟨hcoarser, hfewer⟩ := trim_coarser (digitCount found.digits) found
  rw [middle_div_one] at hclose
  have hfloor : i.floor e < 10 ^ (more + 1) := by
    obtain ⟨hle, -⟩ := i.floor_spec hone e
    rw [middle_div_one, ← le_div_iff₀ (ten_zpow_pos e)] at hle
    have hlt : (i.floor e : ℚ) < 10 ^ (start + 1 - e) := by
      rw [zpow_sub₀ (by norm_num)]
      exact hle.trans_lt (div_lt_div_of_pos_right hlog' (ten_zpow_pos e))
    have hpower : (10 : ℚ) ^ (start + 1 - e) ≤ 10 ^ (more + 1) := by
      rw [← zpow_natCast]
      exact zpow_le_zpow_right₀ (by norm_num) (by push_cast; omega)
    exact_mod_cast hlt.trans_le hpower
  refine ⟨⟨?_, ?_, ?_, ?_⟩, by omega, ?_⟩
  · rwa [value_trim]
  · rwa [value_trim]
  · rwa [value_trim]
  · rw [value_trim]
    exact hclose.trans (zpow_le_zpow_right₀ (by norm_num) (by omega))
  · exact hlog'.trans_le (zpow_le_zpow_right₀ (by norm_num) (by omega))

end

end CavityConsole.Decimal

import CavityConsole.Decimal.Shortest
import Mathlib.Tactic.Ring

/-!
# The size of a shortest decimal

The search for a shortest decimal starts on the grid of the value's own power of ten and goes down.
On all these grids the value is at least one step, so the decimal that is found has a digit other
than zero, and it is no larger than the next power of ten above the value (`shortest_bounds`).

Both facts hold of the two neighbours of the value on every such grid, and therefore of whatever the
search takes (`search_of_neighbours`); taking zeros off the end changes neither.
-/

namespace CavityConsole.Decimal

/-! ## Counting digits -/

theorem digitCount_pos (n : Nat) : 0 < digitCount n := Nat.length_toDigits_pos

theorem digitCount_le {n k : Nat} (h : n < 10 ^ k) (hk : 0 < k) : digitCount n ≤ k :=
  (Nat.length_toDigits_le_iff (by decide) hk).mpr h

theorem lt_pow_digitCount (n : Nat) : n < 10 ^ digitCount n :=
  (Nat.length_toDigits_le_iff (by decide) (digitCount_pos n)).mp le_rfl

theorem pow_digitCount_le {n : Nat} (h : 0 < n) : 10 ^ (digitCount n - 1) ≤ n := by
  by_contra hlt
  rcases Nat.eq_zero_or_pos (digitCount n - 1) with hzero | hpos
  · rw [hzero] at hlt
    omega
  · have hle := digitCount_le (Nat.lt_of_not_le hlt) hpos
    omega

/-- A digit taken off the end. -/
theorem digitCount_div_ten {n : Nat} (h : 10 ≤ n) : digitCount n = digitCount (n / 10) + 1 := by
  unfold digitCount digitText
  rw [Nat.toDigits_of_base_le (by decide) h, List.length_append, List.length_singleton]

/-! ## The grids of a value -/

/-- A ratio is at least the power of ten that its logarithm names. -/
theorem floorLog10_le {num den : Nat} (hnum : 0 < num) (hden : 0 < den) :
    den * 10 ^ (floorLog10 num den).toNat ≤ num * 10 ^ (-floorLog10 num den).toNat := by
  unfold floorLog10
  split
  next hle =>
    have hq : 0 < num / den := Nat.div_pos hle hden
    have hpow := pow_digitCount_le hq
    rw [Int.toNat_natCast, Int.toNat_neg_natCast, Nat.pow_zero, Nat.mul_one]
    calc den * 10 ^ (digitCount (num / den) - 1) ≤ den * (num / den) :=
          Nat.mul_le_mul_left den hpow
      _ ≤ num := Nat.mul_div_le num den
  next hlt =>
    have hpow := lt_pow_digitCount ((den - 1) / num)
    rw [Int.toNat_neg_natCast, neg_neg, Int.toNat_natCast, Nat.pow_zero, Nat.mul_one]
    have hden' : den - 1 < 10 ^ digitCount ((den - 1) / num) * num :=
      (Nat.div_lt_iff_lt_mul hnum).mp hpow
    rw [Nat.mul_comm num]
    omega

/-- The multiple of `10 ^ e` at or below the value, as a number of steps. -/
def Interval.floor (i : Interval) (e : Int) : Nat :=
  i.middle * 10 ^ (-e).toNat / (10 ^ e.toNat * i.one)

/-- The neighbours on a grid are the multiples around the value, in either order. -/
theorem neighbours_cases (i : Interval) (e : Int) :
    i.neighbours e = (⟨i.floor e, e⟩, ⟨i.floor e + 1, e⟩) ∨
      i.neighbours e = (⟨i.floor e + 1, e⟩, ⟨i.floor e, e⟩) := by
  unfold Interval.neighbours
  dsimp only
  split
  · exact .inl rfl
  · split
    · exact .inr rfl
    · split
      · exact .inl rfl
      · exact .inr rfl

/-- What holds of the multiples around the value on every grid from `exponent` down holds of what
the search finds. -/
theorem search_of_neighbours {P : Decimal → Prop} (i : Interval) {exponent : Int}
    (h : ∀ e ≤ exponent, P ⟨i.floor e, e⟩ ∧ P ⟨i.floor e + 1, e⟩) (room : Nat) :
    P (i.search exponent room) := by
  have hboth : ∀ e ≤ exponent, P (i.neighbours e).1 ∧ P (i.neighbours e).2 := by
    intro e he
    rcases neighbours_cases i e with hcase | hcase
    · rw [hcase]
      exact h e he
    · rw [hcase]
      exact (h e he).symm
  induction room generalizing exponent with
  | zero => exact (hboth exponent le_rfl).1
  | succ room ih =>
    obtain ⟨hnearer, hfarther⟩ := hboth exponent le_rfl
    have hfound : ∀ d, i.onGrid exponent = some d → P d := by
      intro d hd
      unfold Interval.onGrid at hd
      dsimp only at hd
      split at hd
      · cases hd
        exact hnearer
      · split at hd
        · cases hd
          exact hfarther
        · cases hd
    rw [Interval.search]
    cases hgrid : i.onGrid exponent with
    | some d => exact hfound d hgrid
    | none =>
      -- the next grid is finer, and so are those below it
      have hlower : exponent - 1 ≤ exponent := by omega
      exact ih (fun e he => h e (he.trans hlower)) fun e he => hboth e (he.trans hlower)

/-- On the grids that are searched the value is at least one step. -/
theorem floor_pos {i : Interval} (hmiddle : 0 < i.middle) (hone : 0 < i.one) {e : Int}
    (he : e ≤ floorLog10 i.middle i.one) : 0 < i.floor e := by
  refine Nat.div_pos ?_ (Nat.mul_pos (Nat.pow_pos (by decide)) hone)
  generalize hlog : floorLog10 i.middle i.one = log at he
  have hvalue := floorLog10_le hmiddle hone
  rw [hlog] at hvalue
  calc 10 ^ e.toNat * i.one ≤ 10 ^ log.toNat * i.one :=
        Nat.mul_le_mul_right _ (Nat.pow_le_pow_right (by decide) (by omega))
    _ = i.one * 10 ^ log.toNat := Nat.mul_comm _ _
    _ ≤ i.middle * 10 ^ (-log).toNat := hvalue
    _ ≤ i.middle * 10 ^ (-e).toNat :=
        Nat.mul_le_mul_left _ (Nat.pow_le_pow_right (by decide) (by omega))

/-- The grids that are searched are finer than a power of ten above the value. -/
theorem floorLog10_lt {num den bound : Nat} (hnum : 0 < num) (hden : 0 < den)
    (h : num < 10 ^ bound * den) : floorLog10 num den < bound := by
  by_contra hle
  have hvalue := floorLog10_le hnum hden
  generalize floorLog10 num den = log at hle hvalue
  have hneg : (-log).toNat = 0 := by omega
  rw [hneg, Nat.pow_zero, Nat.mul_one, Nat.mul_comm] at hvalue
  have hpow : 10 ^ bound * den ≤ 10 ^ log.toNat * den :=
    Nat.mul_le_mul_right _ (Nat.pow_le_pow_right (by decide) (by omega))
  omega

/-- On a grid finer than a power of ten above the value, that power is so many steps. -/
theorem floor_lt {i : Interval} {bound : Nat} (h : i.middle < 10 ^ bound * i.one)
    (hone : 0 < i.one) {e : Int} (he : e ≤ bound) : i.floor e < 10 ^ (bound - e).toNat := by
  rw [Interval.floor, Nat.div_lt_iff_lt_mul (Nat.mul_pos (Nat.pow_pos (by decide)) hone)]
  have hexponents : (bound - e).toNat + e.toNat = bound + (-e).toNat := by omega
  calc i.middle * 10 ^ (-e).toNat < 10 ^ bound * i.one * 10 ^ (-e).toNat :=
        Nat.mul_lt_mul_of_pos_right h (Nat.pow_pos (by decide))
    _ = 10 ^ (bound + (-e).toNat) * i.one := by ring
    _ = 10 ^ ((bound - e).toNat + e.toNat) * i.one := by rw [hexponents]
    _ = 10 ^ (bound - e).toNat * (10 ^ e.toNat * i.one) := by ring

/-- So many steps of a grid have their first digit at most at that power of ten. -/
theorem scientific_le {digits bound : Nat} {e : Int} (he : e ≤ bound)
    (h : digits ≤ 10 ^ (bound - e).toNat) : scientific ⟨digits, e⟩ ≤ bound := by
  have hlt : digits < 10 ^ ((bound - e).toNat + 1) :=
    Nat.lt_of_le_of_lt h (Nat.pow_lt_pow_right (by decide) (by omega))
  have hcount := digitCount_le hlt (by omega)
  unfold scientific
  dsimp only
  omega

/-! ## Zeros at the end -/

/-- Zeros are taken off a number that has other digits, and the first digit keeps its place. -/
theorem trim_keeps (room : Nat) (d : Decimal) (h : 0 < d.digits) :
    0 < (trim room d).digits ∧ (trim room d).scientific = d.scientific := by
  induction room generalizing d with
  | zero => exact ⟨h, rfl⟩
  | succ room ih =>
    rw [trim]
    split
    next hzero =>
      have hten : 10 ≤ d.digits := by omega
      obtain ⟨hpos, hplace⟩ := ih ⟨d.digits / 10, d.exponent + 1⟩ (by dsimp only; omega)
      refine ⟨hpos, hplace.trans ?_⟩
      have hcount := digitCount_div_ten hten
      have hleft := digitCount_pos (d.digits / 10)
      unfold scientific
      dsimp only
      omega
    next => exact ⟨h, rfl⟩

/-! ## The shortest decimal -/

/-- **A shortest decimal has a digit other than zero, and its first digit stands at most at the
power of ten above the value.** -/
theorem shortest_bounds {f : Binary.Format} {code bound : Nat} (hunits : 0 < f.units code)
    (h : f.units code < 10 ^ bound * 2 ^ f.scale) :
    0 < (shortest f code).digits ∧ (shortest f code).scientific ≤ bound := by
  set i := Interval.ofCode f code with hi
  have hmiddle : 0 < i.middle := Nat.mul_pos (by decide) hunits
  have hone : 0 < i.one := Nat.two_pow_pos _
  have hvalue : i.middle < 10 ^ bound * i.one := by
    show 2 * f.units code < 10 ^ bound * 2 ^ (f.scale + 1)
    rw [Nat.pow_succ, ← Nat.mul_assoc]
    omega
  have hlog := floorLog10_lt hmiddle hone hvalue
  have hfound : 0 < (i.search (floorLog10 i.middle i.one) f.precision).digits ∧
      (i.search (floorLog10 i.middle i.one) f.precision).scientific ≤ bound := by
    refine search_of_neighbours (P := fun d => 0 < d.digits ∧ d.scientific ≤ bound) i
      (fun e he => ?_) _
    have hpos := floor_pos hmiddle hone he
    have hlt := floor_lt hvalue hone (e := e) (by omega)
    exact ⟨⟨hpos, scientific_le (by omega) (by omega)⟩,
      Nat.succ_pos _, scientific_le (by omega) (by omega)⟩
  obtain ⟨hpos, hplace⟩ := trim_keeps (digitCount
    (i.search (floorLog10 i.middle i.one) f.precision).digits) _ hfound.1
  exact ⟨hpos, hplace.le.trans hfound.2⟩

end CavityConsole.Decimal

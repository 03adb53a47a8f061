import CavityConsole.Binary.Rounding
import Mathlib.Tactic.Ring

/-!
# How large rounded values are

Rounding moves a value by less than a binade, so a power of two above the exact result bounds the
rounded one. The bounds here are coarse on purpose: they are what it takes to know that a result is
finite, not where exactly a format overflows.

* `units_pos`, `units_lt`: a code and the power of two that its binade stays below;
* `nearestCode_le`: a ratio below a power of two is rounded to a code of the binades below it;
* `units_ofRatio_lt`: so the rounded value stays below the next power of two;
* `isFinite_ofRatio`: a ratio well below the largest magnitude is rounded to a finite value.
-/

namespace CavityConsole.Binary

variable {f : Format}

theorem Format.two_mul_binade (f : Format) : 2 * f.binade = 2 ^ f.precision := by
  have hp := f.two_le_precision
  obtain ⟨p, hp⟩ : ∃ p, f.precision = p + 1 := ⟨f.precision - 1, by omega⟩
  rw [Format.binade, hp, Nat.add_sub_cancel]
  exact (Nat.pow_succ' (m := 2) (n := p)).symm

/-- A magnitude is less than two binades of its own step. -/
theorem Format.units_lt (f : Format) (code : Nat) :
    f.units code < 2 ^ (f.precision + (code / f.binade - 1)) := by
  have hb := f.binade_pos
  have hdiv := Nat.div_add_mod code f.binade
  have hmod := Nat.mod_lt code hb
  have hfield : code - (code / f.binade - 1) * f.binade < 2 * f.binade := by
    cases hk : code / f.binade with
    | zero =>
      rw [hk, Nat.mul_zero, Nat.zero_add] at hdiv
      simp only [Nat.zero_sub, Nat.zero_mul, Nat.sub_zero]
      omega
    | succ k =>
      rw [hk, Nat.mul_succ, Nat.mul_comm] at hdiv
      rw [Nat.add_sub_cancel]
      omega
  rw [Nat.pow_add, ← f.two_mul_binade]
  exact Nat.mul_lt_mul_of_pos_right hfield (Nat.two_pow_pos _)

/-- Only the code zero stands for nothing. -/
theorem Format.units_pos (f : Format) {code : Nat} (h : 0 < code) : 0 < f.units code := by
  have hdiv := Nat.div_mul_le_self code f.binade
  have hfield : 0 < code - (code / f.binade - 1) * f.binade := by
    cases hk : code / f.binade with
    | zero => simpa using h
    | succ k =>
      have hb := f.binade_pos
      rw [hk, Nat.succ_mul] at hdiv
      rw [Nat.add_sub_cancel]
      omega
  exact Nat.mul_pos hfield (Nat.two_pow_pos _)

theorem divNearestEven_le (num den : Nat) : divNearestEven num den ≤ num / den + 1 := by
  unfold divNearestEven
  dsimp only
  split
  · omega
  · split <;> omega

/-- A ratio is scaled down to the bits of a significand. -/
theorem scaledDown_lt (f : Format) (q : Nat) :
    q / 2 ^ (q.log2 - (f.precision - 1)) < 2 ^ f.precision := by
  have hp := f.two_le_precision
  rw [Nat.div_lt_iff_lt_mul (Nat.two_pow_pos _), ← Nat.pow_add]
  calc q < 2 ^ (q.log2 + 1) := Nat.lt_log2_self
    _ ≤ 2 ^ (f.precision + (q.log2 - (f.precision - 1))) :=
      Nat.pow_le_pow_right (by decide) (by omega)

/-- A ratio below a power of two is rounded within the binades below it. -/
theorem nearestCode_le (f : Format) {num den k : Nat} (h : num / den < 2 ^ k) :
    f.nearestCode num den ≤ (k - f.precision + 2) * f.binade := by
  have hp := f.two_le_precision
  set shift := Nat.log2 (num / den) - (f.precision - 1) with hshift
  have hsmall : shift ≤ k - f.precision := by
    rcases Nat.eq_zero_or_pos (num / den) with hzero | hpos
    · rw [hshift, hzero, Nat.log2_zero]
      omega
    · have hlog := (Nat.log2_lt hpos.ne').mpr h
      omega
  have hdigits : divNearestEven num (den * Nat.pow 2 shift) ≤ 2 * f.binade := by
    have hle := divNearestEven_le num (den * 2 ^ shift)
    rw [← Nat.div_div_eq_div_mul] at hle
    have hlt := scaledDown_lt f (num / den)
    rw [f.two_mul_binade]
    exact Nat.le_trans hle hlt
  calc f.nearestCode num den
      = shift * f.binade + divNearestEven num (den * Nat.pow 2 shift) := rfl
    _ ≤ (k - f.precision) * f.binade + 2 * f.binade :=
      Nat.add_le_add (Nat.mul_le_mul_right _ hsmall) hdigits
    _ = (k - f.precision + 2) * f.binade := (Nat.add_mul _ _ _).symm

variable {negative : Bool} {num den k : Nat}

theorem scaledRatio_lt (h : num < den * 2 ^ k) :
    num * Nat.pow 2 f.scale / den < 2 ^ (f.scale + k) := by
  have hden : 0 < den := by
    rcases Nat.eq_zero_or_pos den with rfl | hpos
    · simp at h
    · exact hpos
  rw [Nat.div_lt_iff_lt_mul hden]
  calc num * Nat.pow 2 f.scale < den * 2 ^ k * 2 ^ f.scale :=
        Nat.mul_lt_mul_of_pos_right h (Nat.two_pow_pos _)
    _ = 2 ^ (f.scale + k) * den := by ring

/-- Rounding stays below the next power of two. -/
theorem units_ofRatio_lt (h : num < den * 2 ^ k) (hk : f.precision ≤ f.scale + k) :
    (ofRatio negative num den : Binary f).units < 2 ^ (f.scale + (k + 1)) := by
  have hcode : (ofRatio negative num den : Binary f).code ≤
      (f.scale + k - f.precision + 2) * f.binade :=
    Nat.le_trans (Nat.min_le_left _ _) (nearestCode_le f (scaledRatio_lt h))
  have hbinade : (ofRatio negative num den : Binary f).code / f.binade ≤
      f.scale + k - f.precision + 2 :=
    (Nat.div_le_div_right hcode).trans (Nat.mul_div_cancel _ f.binade_pos).le
  calc (ofRatio negative num den : Binary f).units
      < 2 ^ (f.precision + ((ofRatio negative num den : Binary f).code / f.binade - 1)) :=
        f.units_lt _
    _ ≤ 2 ^ (f.scale + (k + 1)) := Nat.pow_le_pow_right (by decide) (by omega)

/-- A ratio well below the largest magnitude is rounded to a finite value. -/
theorem isFinite_ofRatio (h : num < den * 2 ^ k)
    (hk : f.scale + k - f.precision + 2 < 2 ^ f.exponentBits - 1) :
    (ofRatio negative num den : Binary f).isFinite = true := by
  have hcode : (ofRatio negative num den : Binary f).code < f.infinity :=
    calc (ofRatio negative num den : Binary f).code
        ≤ (f.scale + k - f.precision + 2) * f.binade :=
          Nat.le_trans (Nat.min_le_left _ _) (nearestCode_le f (scaledRatio_lt h))
      _ < f.infinity := Nat.mul_lt_mul_of_pos_right hk f.binade_pos
  exact decide_eq_true hcode

/-- The rounded product of values below powers of two is finite while the product of the powers
is. -/
theorem isFinite_mul {x y : Binary f} {i j : Nat} (hx : x.units < 2 ^ (f.scale + i))
    (hy : y.units < 2 ^ (f.scale + j))
    (hk : f.scale + (i + j) - f.precision + 2 < 2 ^ f.exponentBits - 1) :
    (x.mul y).isFinite = true := by
  refine isFinite_ofRatio (k := i + j) ?_ hk
  calc x.units * y.units < 2 ^ (f.scale + i) * 2 ^ (f.scale + j) :=
        Nat.mul_lt_mul'' hx hy
    _ = Nat.pow 2 (2 * f.scale) * 2 ^ (i + j) := by
        show _ = 2 ^ (2 * f.scale) * 2 ^ (i + j)
        rw [← Nat.pow_add, ← Nat.pow_add]
        congr 1
        omega

end CavityConsole.Binary

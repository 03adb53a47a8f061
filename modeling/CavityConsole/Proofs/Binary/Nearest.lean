import CavityConsole.Proofs.Binary.Magnitude
import Mathlib.Tactic.GCongr

/-!
# Which magnitude a ratio is rounded to

The magnitudes go up in steps (`Format.step`), each of them a whole number of its own steps. A ratio
is rounded to the magnitude whose halfway points it lies between (`Nearest`), and only one magnitude
is such (`Nearest.unique`).

* `code_ofRatio_of_nearest`: what lies between the halfway points of a magnitude is rounded to it;
* `units_ofRatio_of_exact`: a number of few enough bits is kept;
* `Nearest.error`: every other ratio moves by at most half a unit in its last place.
-/

namespace CavityConsole.Binary

variable {f : Format}

/-! ## Steps -/

/-- From a magnitude to the next one, in least units. -/
def Format.step (f : Format) (code : Nat) : Nat := 2 ^ (code / f.binade - 1)

/-- A place in a binade, or the first one of the next binade. -/
theorem Format.units_shift (f : Format) {s n : Nat} (hn : n ≤ 2 * f.binade)
    (h : s = 0 ∨ f.binade ≤ n) : f.units (s * f.binade + n) = n * 2 ^ s := by
  have hb := f.binade_pos
  have hquotient : (s * f.binade + n) / f.binade = n / f.binade + s := by
    rw [Nat.add_comm, Nat.add_mul_div_right n s hb]
  rw [Format.units, hquotient]
  rcases Nat.lt_or_ge n f.binade with hsmall | hlarge
  · obtain rfl : s = 0 := h.resolve_right (by omega)
    rw [Nat.div_eq_of_lt hsmall]
    simp
  · rcases Nat.eq_or_lt_of_le hn with rfl | hlt
    · rw [Nat.mul_div_cancel _ hb, show 2 + s - 1 = s + 1 by omega, Nat.add_mul s 1,
        Nat.one_mul, Nat.add_sub_add_left, show 2 * f.binade - f.binade = f.binade by omega]
      show f.binade * 2 ^ (s + 1) = _
      ring
    · have hone : n / f.binade = 1 :=
        Nat.div_eq_of_lt_le (by omega) (by omega)
      rw [hone, Nat.add_sub_cancel_left, Nat.add_sub_cancel_left]
      rfl

/-- Every code has a place in its binade. -/
theorem Format.exists_place (f : Format) (code : Nat) :
    ∃ n, code = (code / f.binade - 1) * f.binade + n ∧ n < 2 * f.binade ∧
      (code / f.binade - 1 = 0 ∨ f.binade ≤ n) := by
  have hb := f.binade_pos
  have hdiv := Nat.div_add_mod code f.binade
  have hmod := Nat.mod_lt code hb
  rw [Nat.mul_comm] at hdiv
  cases hk : code / f.binade with
  | zero =>
    rw [hk] at hdiv
    exact ⟨code, by omega, by omega, .inl rfl⟩
  | succ k =>
    rw [hk, Nat.succ_mul] at hdiv
    rw [Nat.add_sub_cancel]
    exact ⟨f.binade + code % f.binade, by omega, by omega, .inr (by omega)⟩

/-- A magnitude is a whole number of its steps, of at most so many bits. -/
theorem Format.exists_steps (f : Format) (code : Nat) :
    ∃ n < 2 ^ f.precision, f.units code = n * f.step code := by
  obtain ⟨n, hcode, hn, hplace⟩ := f.exists_place code
  refine ⟨n, f.two_mul_binade ▸ hn, ?_⟩
  have hunits := f.units_shift hn.le hplace
  rwa [← hcode] at hunits

theorem Format.units_succ (f : Format) (code : Nat) :
    f.units (code + 1) = f.units code + f.step code := by
  obtain ⟨n, hcode, hn, hplace⟩ := f.exists_place code
  have hunits := f.units_shift hn.le hplace
  have hnext := f.units_shift (s := code / f.binade - 1) (n := n + 1) hn
    (hplace.imp id fun h => by omega)
  rw [← hcode] at hunits
  rw [← Nat.add_assoc, ← hcode] at hnext
  rw [hnext, hunits, Nat.add_mul, Nat.one_mul]
  rfl

theorem Format.step_pos (f : Format) (code : Nat) : 0 < f.step code := Nat.two_pow_pos _

theorem Format.units_strictMono (f : Format) : StrictMono f.units :=
  strictMono_nat_of_lt_succ fun code => by
    rw [f.units_succ]
    exact Nat.lt_add_of_pos_right (f.step_pos code)

/-! ## Rounding -/

/-- The nearest whole number, of two equally near ones the even one. -/
theorem divNearestEven_spec (num : Nat) {den : Nat} (hden : 0 < den) :
    2 * (divNearestEven num den * den) ≤ 2 * num + den ∧
      2 * num ≤ 2 * (divNearestEven num den * den) + den ∧
      (2 * (divNearestEven num den * den) = 2 * num + den ∨
        2 * num = 2 * (divNearestEven num den * den) + den → divNearestEven num den % 2 = 0) := by
  have hdiv := Nat.div_add_mod num den
  have hmod := Nat.mod_lt num hden
  rw [Nat.mul_comm] at hdiv
  unfold divNearestEven
  dsimp only
  split
  next hless => omega
  next =>
    split
    next hmore =>
      rw [Nat.add_mul, Nat.one_mul]
      omega
    next =>
      rcases Nat.mod_two_eq_zero_or_one (num / den) with heven | hodd
      · rw [heven, Nat.add_zero]
        omega
      · rw [hodd, Nat.add_mul, Nat.one_mul]
        omega

/-- A ratio of least units lies between the halfway points of a magnitude; on such a point it does
so only when the code is even. -/
structure Nearest (f : Format) (num den code : Nat) : Prop where
  low : (f.units (code - 1) + f.units code) * den ≤ 2 * num
  high : 2 * num ≤ (f.units code + f.units (code + 1)) * den
  tie : (f.units (code - 1) + f.units code) * den = 2 * num ∨
    2 * num = (f.units code + f.units (code + 1)) * den → code % 2 = 0

/-- **There is only one nearest magnitude.** -/
theorem Nearest.unique {num den a b : Nat} (hden : 0 < den) (ha : Nearest f num den a)
    (hb : Nearest f num den b) : a = b := by
  wlog hlt : a < b generalizing a b
  · rcases Nat.lt_or_ge b a with hgt | hge
    · exact (this hb ha hgt).symm
    · omega
  -- between two codes lies a halfway point of each, so both meet in one point
  have hmono := f.units_strictMono
  have hbefore : f.units a ≤ f.units (b - 1) := hmono.monotone (by omega)
  have hbehind : f.units (a + 1) ≤ f.units b := hmono.monotone hlt
  have hhalfway := Nat.mul_le_mul_right den (Nat.add_le_add hbefore hbehind)
  have hmeet := ha.high.trans (hhalfway.trans hb.low)
  have heven := ha.tie (.inr (Nat.le_antisymm ha.high (hhalfway.trans hb.low)))
  have hother := hb.tie (.inl (Nat.le_antisymm hb.low (ha.high.trans hhalfway)))
  have hsame := Nat.eq_of_mul_eq_mul_right hden
    (Nat.le_antisymm hhalfway (hb.low.trans ha.high))
  have hnext : a = b - 1 := hmono.injective (by omega)
  omega

theorem Format.binade_even (f : Format) : f.binade % 2 = 0 := by
  have hp := f.two_le_precision
  rw [Format.binade, show f.precision - 1 = f.precision - 2 + 1 by omega]
  show 2 ^ (f.precision - 2 + 1) % 2 = 0
  rw [Nat.pow_succ, Nat.mul_mod_left]

/-- The step at a place of a binade; the first place of the next binade has a larger one. -/
theorem Format.le_step (f : Format) {s n : Nat} (hplace : s = 0 ∨ f.binade ≤ n) :
    2 ^ s ≤ f.step (s * f.binade + n) := by
  refine Nat.pow_le_pow_right (by decide) ?_
  rw [Nat.add_comm, Nat.add_mul_div_right n s f.binade_pos]
  rcases hplace with hzero | hlarge
  · omega
  · have hone : 1 ≤ n / f.binade := (Nat.one_le_div_iff f.binade_pos).mpr hlarge
    omega

/-- The nearest place of a binade is the nearest magnitude. Below the least significand of a binade
the steps are finer, so there the ratio has to be in the binade. -/
theorem nearest_of_place {num den s n : Nat} (hden : 0 < den) (hn : n ≤ 2 * f.binade)
    (hplace : s = 0 ∨ f.binade ≤ n) (hscaled : s = 0 ∨ f.binade * (den * 2 ^ s) ≤ num)
    (hlow : 2 * (n * (den * 2 ^ s)) ≤ 2 * num + den * 2 ^ s)
    (hhigh : 2 * num ≤ 2 * (n * (den * 2 ^ s)) + den * 2 ^ s)
    (htie : 2 * (n * (den * 2 ^ s)) = 2 * num + den * 2 ^ s ∨
      2 * num = 2 * (n * (den * 2 ^ s)) + den * 2 ^ s → n % 2 = 0) :
    Nearest f num den (s * f.binade + n) := by
  have hb := f.binade_pos
  have hunits : f.units (s * f.binade + n) * den = n * (den * 2 ^ s) := by
    rw [f.units_shift hn hplace]
    ring
  have heven : n % 2 = 0 → (s * f.binade + n) % 2 = 0 := by
    intro h
    rw [Nat.add_mod, Nat.mul_mod, f.binade_even, h]
    simp
  have hnext : n * (den * 2 ^ s) + den * 2 ^ s ≤ f.units (s * f.binade + n + 1) * den := by
    rw [f.units_succ, Nat.add_mul, hunits, Nat.mul_comm den]
    exact Nat.add_le_add_left (Nat.mul_le_mul_right den (f.le_step hplace)) _
  -- the magnitude before it: none, the place before in the binade, or one of the binade below
  have hbefore : n = 0 ∨ f.units (s * f.binade + n - 1) * den + den * 2 ^ s = n * (den * 2 ^ s) ∨
      f.units (s * f.binade + n - 1) * den < n * (den * 2 ^ s) ∧ n * (den * 2 ^ s) ≤ num := by
    cases n with
    | zero => exact .inl rfl
    | succ n =>
      refine .inr ?_
      by_cases hinner : s = 0 ∨ f.binade ≤ n
      · have hprevious := f.units_shift (s := s) (n := n) (by omega) hinner
        refine .inl ?_
        rw [← Nat.add_assoc, Nat.add_sub_cancel, hprevious]
        ring
      · have hleast : n + 1 = f.binade := by omega
        refine .inr ⟨?_, ?_⟩
        · rw [← hunits]
          exact Nat.mul_lt_mul_of_pos_right (f.units_strictMono (by omega)) hden
        · rw [hleast]
          exact hscaled.resolve_left (by omega)
  refine ⟨?_, ?_, ?_⟩
  · rw [Nat.add_mul, hunits]
    rcases hbefore with rfl | hbefore
    · obtain rfl : s = 0 := hplace.resolve_right (by omega)
      simp [Format.units]
    · omega
  · rw [Nat.add_mul, hunits]
    omega
  · rw [Nat.add_mul, Nat.add_mul, hunits]
    rcases hbefore with rfl | hbefore
    · exact fun _ => heven rfl
    · exact fun htied => heven (htie (by omega))

/-- **Rounding takes a nearest magnitude.** -/
theorem nearest_nearestCode (f : Format) (num : Nat) {den : Nat} (hden : 0 < den) :
    Nearest f num den (f.nearestCode num den) := by
  generalize hs : Nat.log2 (num / den) - (f.precision - 1) = s
  have hcode : f.nearestCode num den = s * f.binade + divNearestEven num (den * 2 ^ s) := by
    rw [← hs]
    rfl
  -- a quotient that is scaled down has all its bits, so the ratio is in the binade
  have hscaled : s = 0 ∨ f.binade * (den * 2 ^ s) ≤ num := by
    rcases Nat.eq_zero_or_pos s with hzero | hpos
    · exact .inl hzero
    · have hquotient : num / den ≠ 0 := by
        intro hzero
        rw [hzero, Nat.log2_zero] at hs
        omega
      refine .inr ?_
      calc f.binade * (den * 2 ^ s) = den * 2 ^ (f.precision - 1 + s) := by
            rw [Nat.pow_add]
            show 2 ^ (f.precision - 1) * (den * 2 ^ s) = _
            ring
        _ = den * 2 ^ (num / den).log2 := by
            rw [show f.precision - 1 + s = (num / den).log2 by omega]
        _ ≤ den * (num / den) := Nat.mul_le_mul_left den (Nat.log2_self_le hquotient)
        _ ≤ num := Nat.mul_div_le num den
  have hle := divNearestEven_le num (den * 2 ^ s)
  have hlt := scaledDown_lt f (num / den)
  have hstep : 0 < den * 2 ^ s := Nat.mul_pos hden (Nat.two_pow_pos s)
  obtain ⟨hlow, hhigh, htie⟩ := divNearestEven_spec num hstep
  rw [hs, ← f.two_mul_binade, Nat.div_div_eq_div_mul] at hlt
  rw [hcode]
  refine nearest_of_place hden (by omega) (hscaled.imp id fun hlarge => ?_) hscaled hlow hhigh htie
  by_contra hless
  have hshort := Nat.mul_le_mul_right (den * 2 ^ s) (Nat.succ_le_of_lt (Nat.lt_of_not_le hless))
  rw [Nat.succ_mul] at hshort
  omega

/-! ## Rounded values -/

section

variable {negative : Bool} {num den : Nat}

/-- A ratio is rounded to its nearest magnitude. -/
theorem code_ofRatio_of_nearest {code : Nat} (hden : 0 < den)
    (h : Nearest f (num * 2 ^ f.scale) den code) (hfinite : code < f.infinity) :
    (ofRatio negative num den : Binary f).code = code := by
  have hcode : f.nearestCode (num * 2 ^ f.scale) den = code :=
    (nearest_nearestCode f _ hden).unique hden h
  show min (f.nearestCode (num * 2 ^ f.scale) den) f.infinity = code
  rw [hcode, Nat.min_eq_left hfinite.le]

/-- A finite value is the nearest magnitude. -/
theorem nearest_code_ofRatio (hden : 0 < den)
    (hfinite : (ofRatio negative num den : Binary f).isFinite = true) :
    Nearest f (num * 2 ^ f.scale) den (ofRatio negative num den : Binary f).code := by
  have hlt : min (f.nearestCode (num * 2 ^ f.scale) den) f.infinity < f.infinity :=
    of_decide_eq_true hfinite
  have hle : f.nearestCode (num * 2 ^ f.scale) den ≤ f.infinity := by omega
  have hcode : (ofRatio negative num den : Binary f).code =
      f.nearestCode (num * 2 ^ f.scale) den := Nat.min_eq_left hle
  rw [hcode]
  exact nearest_nearestCode f _ hden

/-- A number of few enough bits is a magnitude. -/
theorem Format.exists_units (f : Format) {n : Nat} (hn : n ≤ 2 ^ f.precision) (s : Nat) :
    ∃ code, f.units code = n * 2 ^ s := by
  rw [← f.two_mul_binade] at hn
  induction s generalizing n with
  | zero => exact ⟨0 * f.binade + n, f.units_shift hn (.inl rfl)⟩
  | succ s ih =>
    rcases Nat.lt_or_ge n f.binade with hsmall | hlarge
    · obtain ⟨code, hcode⟩ := ih (n := 2 * n) (by omega)
      exact ⟨code, hcode.trans (by ring)⟩
    · exact ⟨_, f.units_shift hn (.inr hlarge)⟩

theorem nearest_of_exact {code : Nat} (hden : 0 < den) (h : num = f.units code * den) :
    Nearest f num den code := by
  have hmono := f.units_strictMono
  have hbefore : f.units (code - 1) * den ≤ f.units code * den :=
    Nat.mul_le_mul_right den (hmono.monotone (Nat.sub_le code 1))
  have hbehind : f.units code * den < f.units (code + 1) * den :=
    Nat.mul_lt_mul_of_pos_right (hmono (Nat.lt_succ_self code)) hden
  refine ⟨?_, ?_, ?_⟩
  · rw [Nat.add_mul, h]
    omega
  · rw [Nat.add_mul, h]
    omega
  · rw [Nat.add_mul, Nat.add_mul, h]
    rintro (htie | htie)
    · have hsame := hmono.injective (Nat.eq_of_mul_eq_mul_right hden
        (show f.units (code - 1) * den = f.units code * den by omega))
      omega
    · omega

/-- **A number of few enough bits is kept.** -/
theorem units_ofRatio_of_exact {n s : Nat} (hden : 0 < den)
    (hfinite : (ofRatio negative num den : Binary f).isFinite = true) (hn : n ≤ 2 ^ f.precision)
    (h : num * 2 ^ f.scale = n * 2 ^ s * den) :
    (ofRatio negative num den : Binary f).units = n * 2 ^ s := by
  obtain ⟨code, hcode⟩ := f.exists_units hn s
  rw [← hcode] at h
  have hsame := (nearest_code_ofRatio hden hfinite).unique hden (nearest_of_exact hden h)
  rw [units, hsame, hcode]

/-- Where a binade has all its bits, a magnitude is at least that many of its steps. -/
theorem Format.binade_mul_step_le (f : Format) {code : Nat} (h : f.binade ≤ code) :
    f.binade * f.step code ≤ f.units code := by
  obtain ⟨n, hcode, hn, hplace⟩ := f.exists_place code
  have hunits := f.units_shift hn.le hplace
  rw [← hcode] at hunits
  rw [hunits]
  refine Nat.mul_le_mul_right _ ?_
  rcases hplace with hzero | hlarge
  · rw [hzero] at hcode
    omega
  · exact hlarge

theorem Format.step_mono (f : Format) {a b : Nat} (h : a ≤ b) : f.step a ≤ f.step b :=
  Nat.pow_le_pow_right (by decide) (Nat.sub_le_sub_right (Nat.div_le_div_right h) 1)

/-- A step is at most a least unit more than its share of the magnitude. -/
theorem Format.binade_mul_step_le_add (f : Format) (code : Nat) :
    f.binade * f.step code ≤ f.units code + f.binade := by
  rcases Nat.lt_or_ge code f.binade with hsmall | hlarge
  · have hone : f.step code = 1 := by
      rw [Format.step, Nat.div_eq_of_lt hsmall]
      rfl
    rw [hone, Nat.mul_one]
    exact Nat.le_add_left _ _
  · exact (f.binade_mul_step_le hlarge).trans (Nat.le_add_right _ _)

/-- From a magnitude down to the one before it is no more than its step. -/
theorem Format.units_le_pred (f : Format) (code : Nat) :
    f.units code ≤ f.units (code - 1) + f.step code := by
  cases code with
  | zero => exact Nat.le_add_right _ _
  | succ code =>
    rw [f.units_succ, Nat.add_sub_cancel]
    exact Nat.add_le_add_left (f.step_mono (Nat.le_succ code)) _

/-- Rounding does not pass a magnitude. -/
theorem Nearest.code_le {code bound : Nat} (h : Nearest f num den code) (hden : 0 < den)
    (hle : num ≤ f.units bound * den) : code ≤ bound := by
  by_contra hmore
  have hmono := f.units_strictMono
  have hbefore : f.units bound ≤ f.units (code - 1) := hmono.monotone (by omega)
  have hcode : f.units bound < f.units code := hmono (by omega)
  have habove : 2 * f.units bound * den < (f.units (code - 1) + f.units code) * den :=
    Nat.mul_lt_mul_of_pos_right (by omega) hden
  have hlow := h.low
  rw [Nat.mul_assoc] at habove
  omega

theorem Nearest.le_code {code bound : Nat} (h : Nearest f num den code) (hden : 0 < den)
    (hle : f.units bound * den ≤ num) : bound ≤ code := by
  by_contra hless
  have hmono := f.units_strictMono
  have hcode : f.units code < f.units bound := hmono (by omega)
  have hnext : f.units (code + 1) ≤ f.units bound := hmono.monotone (by omega)
  have hbelow : (f.units code + f.units (code + 1)) * den < 2 * f.units bound * den :=
    Nat.mul_lt_mul_of_pos_right (by omega) hden
  have hhigh := h.high
  rw [Nat.mul_assoc] at hbelow
  omega

/-- A ratio that has all its bits is rounded within its binade or above. -/
theorem Nearest.binade_le {code : Nat} (h : Nearest f num den code)
    (hlarge : f.binade * den ≤ num) (hden : 0 < den) : f.binade ≤ code := by
  have hleast : f.units f.binade = f.binade := by
    have hunits := f.units_shift (s := 0) (n := f.binade) (by omega) (.inl rfl)
    simpa using hunits
  exact h.le_code hden (hleast.symm ▸ hlarge)

/-- **Rounding moves a ratio by at most half a unit in its last place.** -/
theorem Nearest.error {code : Nat} (h : Nearest f num den code) (hnormal : f.binade ≤ code) :
    2 ^ f.precision * num ≤ (2 ^ f.precision + 1) * (f.units code * den) ∧
      2 ^ f.precision * (f.units code * den) ≤ 2 ^ f.precision * num + f.units code * den := by
  have hb := f.binade_pos
  have hstep := Nat.mul_le_mul_right den (f.binade_mul_step_le hnormal)
  -- at the least significand the step below is smaller, which only helps
  have hprevious := f.units_le_pred code
  have hlow := h.low
  have hhigh := h.high
  rw [f.units_succ] at hhigh
  rw [← f.two_mul_binade]
  constructor
  · calc 2 * f.binade * num = f.binade * (2 * num) := by ring
      _ ≤ f.binade * ((f.units code + (f.units code + f.step code)) * den) :=
        Nat.mul_le_mul_left _ hhigh
      _ = 2 * f.binade * (f.units code * den) + f.binade * f.step code * den := by ring
      _ ≤ 2 * f.binade * (f.units code * den) + f.units code * den := Nat.add_le_add_left hstep _
      _ = (2 * f.binade + 1) * (f.units code * den) := by ring
  · calc 2 * f.binade * (f.units code * den)
        = f.binade * ((f.units code + f.units code) * den) := by ring
      _ ≤ f.binade * ((f.units (code - 1) + f.step code + f.units code) * den) := by gcongr
      _ = f.binade * ((f.units (code - 1) + f.units code) * den) +
          f.binade * f.step code * den := by ring
      _ ≤ f.binade * (2 * num) + f.units code * den :=
        Nat.add_le_add (Nat.mul_le_mul_left _ hlow) hstep
      _ = 2 * f.binade * num + f.units code * den := by ring

end

end CavityConsole.Binary

import CavityConsole.Decimal.Scaled
import Mathlib.Tactic.Linarith
import Mathlib.Tactic.Ring

/-!
# Fractions in a narrow window

Whether a property holds of the numerator of every fraction in a window whose two sides do not
exceed a bound is found out by a search (`Window.clear`) that follows the continued fraction of the
window. Each step takes the whole part off the fractions and turns them upside down, so the search
keeps the map from the fractions it is at to those it started from (`Frame`). It ends where even the
simplest fraction left exceeds the bound, or where only the multiples of one fraction are left. It
is made to be evaluated in proofs, so it compares numbers by the functions that are evaluated at
once.

**The law** (`Window.ok_of_clear`): when the search says so, the property holds of all of them.
-/

namespace CavityConsole.Decimal

/-- A map of fractions: `x / y` goes to `(p * x + r * y) / (u * x + v * y)`. -/
structure Frame where
  /-- The numerator counts `x` so many times. -/
  p : Nat
  /-- The numerator counts `y` so many times. -/
  r : Nat
  /-- The denominator counts `x` so many times. -/
  u : Nat
  /-- The denominator counts `y` so many times. -/
  v : Nat

namespace Frame

def start : Frame := ⟨1, 0, 0, 1⟩

def num (f : Frame) (x y : Nat) : Nat := f.p * x + f.r * y

def den (f : Frame) (x y : Nat) : Nat := f.u * x + f.v * y

/-- The map of what is left of the fractions when their whole part is taken off and they are turned
upside down. -/
def next (f : Frame) (whole : Nat) : Frame := ⟨f.p * whole + f.r, f.p, f.u * whole + f.v, f.u⟩

theorem num_next (f : Frame) (whole y z : Nat) :
    (f.next whole).num y z = f.num (whole * y + z) y := by
  unfold num next
  ring

theorem den_next (f : Frame) (whole y z : Nat) :
    (f.next whole).den y z = f.den (whole * y + z) y := by
  unfold den next
  ring

end Frame

/-- The fractions from `a / b` to `c / d`. -/
structure Window where
  /-- The least fraction is `a / b`. -/
  a : Nat
  /-- The least fraction is `a / b`. -/
  b : Nat
  /-- The greatest fraction is `c / d`. -/
  c : Nat
  /-- The greatest fraction is `c / d`. -/
  d : Nat

namespace Window

/-- The fraction `x / y` is in the window. -/
structure Holds (w : Window) (x y : Nat) : Prop where
  least : w.a * y ≤ w.b * x
  greatest : w.d * x ≤ w.c * y

/-- What is left of a window when the whole part is taken off its fractions and they are turned
upside down. -/
def next (w : Window) : Window := ⟨w.d, w.c % w.d, w.b, w.a % w.b⟩

/-- The least whole number that is not below the window. -/
def least (w : Window) : Nat := (w.a + w.b - 1) / w.b

/-- The property holds of all multiples of the whole number `n`, and the window is too narrow for
other fractions of such small numbers. -/
def few (ok : Nat → Bool) (bound n : Nat) (f : Frame) (w : Window) : Bool :=
  let each := f.u * (n - 1) + f.v
  let most := bound / each
  Nat.blt 0 each && Nat.blt ((w.c - w.d * n) * most) w.d && Nat.blt ((w.b * n - w.a) * most) w.b &&
    (List.range most).all fun y => ok (f.num (n * (y + 1)) (y + 1))

/-- The property holds of the numerators of all fractions of the window whose two sides do not
exceed the bound. -/
def clear (ok : Nat → Bool) (bound : Nat) : (room : Nat) → Frame → Window → Bool
  | 0, _, _ => false
  | room + 1, f, w =>
    let n := w.least
    bif Nat.blt bound (f.num n 1) || Nat.blt bound (f.den n 1) then true
    else bif Nat.ble (w.d * n) w.c then few ok bound n f w
    else Nat.beq (w.c / w.d) (w.a / w.b) && clear ok bound room (f.next (w.a / w.b)) w.next

variable {ok : Nat → Bool} {bound : Nat} {f : Frame} {w : Window} {x y : Nat}

/-- A fraction of the window is above every whole number below the window. -/
theorem Holds.least_lt (h : w.Holds x y) (ha : 0 < w.a) (hy : 0 < y) :
    0 < w.b ∧ w.a ≤ w.b * w.least ∧ 0 < w.least ∧ (w.least - 1) * y < x := by
  have hay := Nat.mul_pos ha hy
  have hb : 0 < w.b := by
    refine Nat.pos_of_ne_zero fun hzero => ?_
    have hleast := h.least
    rw [hzero, Nat.zero_mul] at hleast
    omega
  have hdiv := Nat.div_add_mod (w.a + w.b - 1) w.b
  have hmod := Nat.mod_lt (w.a + w.b - 1) hb
  change w.b * w.least + _ = _ at hdiv
  have hle : w.a ≤ w.b * w.least := by omega
  have hpos : 0 < w.least := by
    refine Nat.pos_of_ne_zero fun hzero => ?_
    rw [hzero, Nat.mul_zero] at hle
    omega
  refine ⟨hb, hle, hpos, ?_⟩
  obtain ⟨m, hm⟩ : ∃ m, w.least = m + 1 := ⟨w.least - 1, by omega⟩
  rw [hm, Nat.mul_succ] at hdiv
  rw [hm, Nat.add_sub_cancel]
  have hbelow : w.b * m < w.a := by omega
  refine Nat.lt_of_mul_lt_mul_left (a := w.b) ?_
  calc w.b * (m * y) = w.b * m * y := (Nat.mul_assoc _ _ _).symm
    _ < w.a * y := Nat.mul_lt_mul_of_pos_right hbelow hy
    _ ≤ w.b * x := h.least

/-- The simplest fraction that may be left is the least in numerator and denominator. -/
theorem Holds.num_least_le (h : w.Holds x y) (ha : 0 < w.a) (hy : 0 < y) :
    f.num w.least 1 ≤ f.num x y ∧ f.den w.least 1 ≤ f.den x y := by
  obtain ⟨-, -, hpos, hlt⟩ := h.least_lt ha hy
  have hx : w.least ≤ x := by
    have hle : (w.least - 1) * 1 ≤ (w.least - 1) * y := Nat.mul_le_mul_left _ hy
    omega
  exact ⟨Nat.add_le_add (Nat.mul_le_mul_left _ hx) (Nat.mul_le_mul_left _ hy),
    Nat.add_le_add (Nat.mul_le_mul_left _ hx) (Nat.mul_le_mul_left _ hy)⟩

/-- In a window that is narrow enough all fractions are multiples of one. -/
theorem ok_of_few (hfew : few ok bound w.least f w = true) (hw : w.d * w.least ≤ w.c)
    (h : w.Holds x y) (ha : 0 < w.a) (hy : 0 < y) (hden : f.den x y ≤ bound) :
    ok (f.num x y) = true := by
  obtain ⟨hb, hle, hpos, hlt⟩ := h.least_lt ha hy
  unfold few at hfew
  dsimp only at hfew
  generalize w.least = n at *
  simp only [Bool.and_eq_true, Nat.blt_eq, List.all_eq_true, List.mem_range] at hfew
  obtain ⟨⟨⟨heach, habove⟩, hbelow⟩, hok⟩ := hfew
  have hmost : y ≤ bound / (f.u * (n - 1) + f.v) := by
    rw [Nat.le_div_iff_mul_le heach]
    calc y * (f.u * (n - 1) + f.v) = f.u * ((n - 1) * y) + f.v * y := by ring
      _ ≤ f.u * x + f.v * y := Nat.add_le_add_right (Nat.mul_le_mul_left _ hlt.le) _
      _ ≤ bound := hden
  generalize bound / (f.u * (n - 1) + f.v) = most at *
  -- the distance from `n * y` to either end of the window is less than one over so few
  have hx : x = n * y := by
    have hfar := Nat.mul_le_mul_left (w.c - w.d * n) hmost
    have hnear := Nat.mul_le_mul_left (w.b * n - w.a) hmost
    have hgreatest := h.greatest
    have hleast := h.least
    obtain ⟨more, hmore⟩ := Nat.exists_eq_add_of_le hw
    obtain ⟨less, hless⟩ := Nat.exists_eq_add_of_le hle
    rw [hmore, Nat.add_sub_cancel_left] at hfar habove
    rw [hless, Nat.add_sub_cancel_left] at hnear hbelow
    apply Nat.le_antisymm
    · refine Nat.le_of_lt_succ (Nat.lt_of_mul_lt_mul_left (a := w.d) ?_)
      calc w.d * x ≤ w.c * y := hgreatest
        _ = w.d * (n * y) + more * y := by rw [hmore]; ring
        _ < w.d * (n * y) + w.d := Nat.add_lt_add_left (hfar.trans_lt habove) _
        _ = w.d * (n * y + 1) := (Nat.mul_succ _ _).symm
    · refine Nat.le_of_lt_succ (Nat.lt_of_mul_lt_mul_left (a := w.b) ?_)
      calc w.b * (n * y) = w.a * y + less * y := by rw [← Nat.mul_assoc, hless]; ring
        _ < w.b * x + w.b := Nat.add_lt_add_of_le_of_lt hleast (hnear.trans_lt hbelow)
        _ = w.b * (x + 1) := (Nat.mul_succ _ _).symm
  have hmultiple := hok (y - 1) (by omega)
  rwa [Nat.sub_add_cancel hy, ← hx] at hmultiple

/-- What is left of a fraction of the window is in what is left of the window. -/
theorem Holds.next (h : w.Holds x y) (ha : 0 < w.a) (hy : 0 < y)
    (hwhole : w.c / w.d = w.a / w.b) (hw : ¬ w.d * w.least ≤ w.c) :
    ∃ z, 0 < z ∧ x = w.a / w.b * y + z ∧ 0 < w.a % w.b ∧ w.next.Holds y z := by
  obtain ⟨hb, hle, -, -⟩ := h.least_lt ha hy
  have hdivA := Nat.div_add_mod w.a w.b
  have hdivC := Nat.div_add_mod w.c w.d
  rw [hwhole] at hdivC
  generalize hf : w.a / w.b = whole at *
  -- the whole number that a window starts with is in it
  have hrest : 0 < w.a % w.b := by
    refine Nat.pos_of_ne_zero fun hzero => hw ?_
    have hleast : w.least = whole := by
      have hsum : w.a + w.b - 1 = w.b * whole + (w.b - 1) := by omega
      rw [Window.least, hsum, Nat.mul_add_div hb, Nat.div_eq_of_lt (by omega), Nat.add_zero]
    rw [hleast]
    omega
  have hleast := h.least
  have hgreatest := h.greatest
  have hx : whole * y ≤ x := by
    refine Nat.le_of_mul_le_mul_left ?_ hb
    calc w.b * (whole * y) = w.b * whole * y := (Nat.mul_assoc _ _ _).symm
      _ ≤ w.a * y := Nat.mul_le_mul_right _ (by omega)
      _ ≤ w.b * x := hleast
  obtain ⟨z, rfl⟩ := Nat.exists_eq_add_of_le hx
  have hbelow : w.a % w.b * y ≤ w.b * z := by
    nlinarith
  have habove : w.d * z ≤ w.c % w.d * y := by
    nlinarith
  refine ⟨z, Nat.pos_of_ne_zero fun hzero => ?_, rfl, hrest, habove, hbelow⟩
  rw [hzero, Nat.mul_zero] at hbelow
  have hpositive := Nat.mul_pos hrest hy
  omega

/-- **The property holds of all fractions of a window that the search clears.** -/
theorem ok_of_clear {room : Nat} (hclear : clear ok bound room f w = true) (ha : 0 < w.a)
    (hd : 0 < w.d) (h : w.Holds x y) (hy : 0 < y) (hnum : f.num x y ≤ bound)
    (hden : f.den x y ≤ bound) : ok (f.num x y) = true := by
  induction room generalizing f w x y with
  | zero => cases hclear
  | succ room ih =>
    obtain ⟨hleastNum, hleastDen⟩ := h.num_least_le (f := f) ha hy
    rw [clear] at hclear
    simp only [cond_eq_ite, Bool.or_eq_true, Nat.blt_eq, Nat.ble_eq] at hclear
    rw [if_neg (by omega)] at hclear
    split at hclear
    next hw => exact ok_of_few hclear hw h ha hy hden
    next hw =>
      rw [Bool.and_eq_true, Nat.beq_eq] at hclear
      obtain ⟨z, hz, rfl, hrest, hnext⟩ := h.next ha hy hclear.1 hw
      rw [← Frame.num_next] at hnum ⊢
      rw [← Frame.den_next] at hden
      exact ih hclear.2 hd hrest hnext hz hnum hden

end Window

end CavityConsole.Decimal

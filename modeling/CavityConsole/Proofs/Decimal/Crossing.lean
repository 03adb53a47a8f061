import CavityConsole.Proofs.Decimal.Fractions
import CavityConsole.Proofs.Decimal.Interval

/-!
# Decimals next to halfway points

The points halfway between two 32-bit values are the numbers `odd * 2 ^ s / 2 ^ 150` of few bits. A
decimal of few bits that is not such a point, but closer to it than two roundings in 64 bits may
move it, could be read on the other side of the point. There are hardly any: the odd number and the
decimal's digits would be a fraction in a narrow window on one side of a ratio of powers, and a
search of all such windows (`windows_clear`) finds only decimals whose reading in 64 bits is nearest
to the same 32-bit value all the same.

**The law** (`harmless_of_near`): reading a decimal next to a halfway point through 64 bits gives
the 32-bit value that is nearest to the decimal.
-/

namespace CavityConsole.Decimal

open Binary

/-- The 64-bit value that a significand and a power of ten within range are read as. -/
def readOnce (significand : Nat) (exponent : Int) : Double :=
  if exponent < 0 then (ofNat significand).div (power exponent.natAbs)
  else (ofNat significand).mul (power exponent.toNat)

/-- The 32-bit value nearest to a decimal. -/
def nearestSingle (significand : Nat) (exponent : Int) : Single :=
  ofRatio false (significand * Nat.pow 10 exponent.toNat) (Nat.pow 10 (-exponent).toNat)

/-- Reading a decimal through 64 bits gives the 32-bit value nearest to it. -/
def harmless (exponent : Int) (significand : Nat) : Bool :=
  (readOnce significand exponent).convert Format.single == nearestSingle significand exponent

/-! ## The windows -/

/-- Bound of the numbers of few bits. -/
def fewBits : Nat := Nat.pow 2 25

/-- Reading a decimal moves it by at most so small a part of it. -/
def part : Nat := Nat.pow 2 51

/-- Where `one` parts are worth `top` halves of a step, decimals of few bits next to halfway points
are harmless: those below the points and those above. If so few digits cannot come near a point, or
if their last one is worth less than half a step, there is nothing to look at. -/
def windowsClear (exponent : Int) (top one : Nat) : Bool :=
  Nat.blt (2 * one) top || Nat.blt (top * (2 * fewBits)) one ||
    (Window.clear (harmless exponent) fewBits 40 .start
        ⟨top * (part - 1), one * part, top * fewBits - 1, one * fewBits⟩ &&
      Window.clear (harmless exponent) fewBits 40 .start
        ⟨top * fewBits + 1, one * fewBits, top * (part + 1), one * part⟩)

section

variable {exponent : Int} {top one digits odd : Nat}

/-- A decimal below a halfway point. -/
theorem ok_of_below {ok : Nat → Bool} (htop : 0 < top) (hone : 0 < one)
    (hclear : Window.clear ok fewBits 40 .start
      ⟨top * (part - 1), one * part, top * fewBits - 1, one * fewBits⟩ = true)
    (hdigits : digits ≤ fewBits) (hodd : 0 < odd) (hodd' : odd ≤ fewBits)
    (hnear : top * (part - 1) * odd ≤ one * part * digits)
    (hbelow : one * digits < top * odd) : ok digits = true := by
  have hfew : 0 < fewBits := by decide
  have hpart : 0 < part - 1 := by decide
  have hwindow : Window.Holds ⟨top * (part - 1), one * part, top * fewBits - 1, one * fewBits⟩
      digits odd := by
    refine ⟨hnear, ?_⟩
    dsimp only
    have hmore := Nat.mul_le_mul_right fewBits (Nat.succ_le_of_lt hbelow)
    rw [Nat.succ_mul] at hmore
    rw [Nat.sub_mul, Nat.one_mul]
    refine Nat.le_sub_of_add_le ?_
    calc one * fewBits * digits + odd ≤ one * digits * fewBits + fewBits := by
          rw [Nat.mul_right_comm]
          exact Nat.add_le_add_left hodd' _
      _ ≤ top * odd * fewBits := hmore
      _ = top * fewBits * odd := Nat.mul_right_comm _ _ _
  have hok := Window.ok_of_clear hclear (Nat.mul_pos htop hpart) (Nat.mul_pos hone hfew) hwindow
    hodd (by simpa [Frame.num, Frame.start] using hdigits)
    (by simpa [Frame.den, Frame.start] using hodd')
  simpa [Frame.num, Frame.start] using hok

theorem ok_of_above {ok : Nat → Bool} (hone : 0 < one)
    (hclear : Window.clear ok fewBits 40 .start
      ⟨top * fewBits + 1, one * fewBits, top * (part + 1), one * part⟩ = true)
    (hdigits : digits ≤ fewBits) (hodd : 0 < odd) (hodd' : odd ≤ fewBits)
    (hnear : one * part * digits ≤ top * (part + 1) * odd)
    (habove : top * odd < one * digits) : ok digits = true := by
  have hpart : 0 < part := by decide
  have hwindow : Window.Holds ⟨top * fewBits + 1, one * fewBits, top * (part + 1), one * part⟩
      digits odd := by
    refine ⟨?_, hnear⟩
    dsimp only
    have hmore := Nat.mul_le_mul_right fewBits (Nat.succ_le_of_lt habove)
    rw [Nat.succ_mul] at hmore
    calc (top * fewBits + 1) * odd = top * odd * fewBits + odd := by ring
      _ ≤ top * odd * fewBits + fewBits := Nat.add_le_add_left hodd' _
      _ ≤ one * digits * fewBits := hmore
      _ = one * fewBits * digits := Nat.mul_right_comm _ _ _
  have hok := Window.ok_of_clear hclear (Nat.succ_pos _) (Nat.mul_pos hone hpart) hwindow hodd
    (by simpa [Frame.num, Frame.start] using hdigits)
    (by simpa [Frame.den, Frame.start] using hodd')
  simpa [Frame.num, Frame.start] using hok

/-- A decimal next to a halfway point, on either side of it. -/
theorem harmless_of_windowsClear (hclear : windowsClear exponent top one = true) (htop : 0 < top)
    (hone : 0 < one) (hworth : top ≤ 2 * one) (hdigits : 0 < digits) (hdigits' : digits ≤ fewBits)
    (hodd : 0 < odd) (hodd' : odd ≤ fewBits)
    (hlow : top * (part - 1) * odd ≤ one * part * digits)
    (hhigh : one * part * digits ≤ top * (part + 1) * odd) (hne : one * digits ≠ top * odd) :
    harmless exponent digits = true := by
  have hreached : one ≤ top * (2 * fewBits) := by
    have hpart : 0 < part := by decide
    refine Nat.le_of_mul_le_mul_left ?_ hpart
    calc part * one = one * part * 1 := by ring
      _ ≤ one * part * digits := Nat.mul_le_mul_left _ hdigits
      _ ≤ top * (part + 1) * odd := hhigh
      _ ≤ top * (part + part) * fewBits :=
        Nat.mul_le_mul (Nat.mul_le_mul_left _ (Nat.add_le_add_left hpart _)) hodd'
      _ = part * (top * (2 * fewBits)) := by ring
  rw [windowsClear, Bool.or_eq_true, Bool.or_eq_true, Bool.and_eq_true, Nat.blt_eq, Nat.blt_eq]
    at hclear
  obtain ⟨hbelow, habove⟩ := hclear.resolve_left (by omega)
  rcases Nat.lt_or_gt_of_ne hne with hlt | hgt
  · exact ok_of_below htop hone hbelow hdigits' hodd hodd' hlow hlt
  · exact ok_of_above hone habove hdigits' hodd hodd' hhigh hgt

end

/-! ## All windows -/

set_option maxRecDepth 10000 in
/-- All steps of the 32-bit values, and all exponents of their shortest decimals. -/
theorem windows_clear :
    ((List.range 254).all fun s => (List.range 93).all fun e =>
      windowsClear (e - 53) (Nat.pow 2 s * Nat.pow 10 (-(e - 53 : Int)).toNat)
        (Nat.pow 2 150 * Nat.pow 10 (e - 53 : Int).toNat)) = true := by
  decide +kernel

theorem windowsClear_of_lt {s : Nat} {exponent : Int} (hs : s < 254) (hlow : -53 ≤ exponent)
    (hhigh : exponent < 40) :
    windowsClear exponent (2 ^ s * 10 ^ (-exponent).toNat) (2 ^ 150 * 10 ^ exponent.toNat) =
      true := by
  have hexponents := List.all_eq_true.mp windows_clear s (List.mem_range.mpr hs)
  have hclear := List.all_eq_true.mp hexponents (exponent + 53).toNat
    (List.mem_range.mpr (by omega))
  rwa [Int.toNat_of_nonneg (by omega), Int.add_sub_cancel] at hclear

/-- What lies next to a point lies next to it also in natural numbers, when both are multiplied by
their denominators. -/
theorem near_of_within {top one digits odd : Nat} {value point unit : ℚ} (hunit : 0 < unit)
    (hvalue : value * unit = one * digits) (hpoint : point * unit = top * odd)
    (hnear : Within (1 / part) value point) :
    top * (part - 1) * odd ≤ one * part * digits ∧
      one * part * digits ≤ top * (part + 1) * odd := by
  have hpart : 1 ≤ part := by decide
  have hpart' : (0 : ℚ) < part := Nat.cast_pos.mpr hpart
  have hbelow : point * (part - 1) ≤ value * part := by
    have hlow := mul_le_mul_of_nonneg_right hnear.low hpart'.le
    rwa [mul_assoc, sub_mul, one_mul, one_div_mul_cancel hpart'.ne'] at hlow
  have habove : value * part ≤ point * (part + 1) := by
    have hhigh := mul_le_mul_of_nonneg_right hnear.high hpart'.le
    rwa [mul_assoc _ _ (part : ℚ), add_mul, one_mul, one_div_mul_cancel hpart'.ne'] at hhigh
  constructor
  · qify [hpart]
    calc (top * (part - 1) * odd : ℚ) = top * odd * (part - 1) := by ring
      _ = point * (part - 1) * unit := by rw [← hpoint]; ring
      _ ≤ value * part * unit := mul_le_mul_of_nonneg_right hbelow hunit.le
      _ = value * unit * part := by ring
      _ = one * part * digits := by rw [hvalue]; ring
  · qify
    calc (one * part * digits : ℚ) = one * digits * part := by ring
      _ = value * part * unit := by rw [← hvalue]; ring
      _ ≤ point * (part + 1) * unit := mul_le_mul_of_nonneg_right habove hunit.le
      _ = point * unit * (part + 1) := by ring
      _ = top * (part + 1) * odd := by rw [hpoint]; ring

/-- **Decimals of few bits next to halfway points are harmless.** -/
theorem harmless_of_near {s odd : Nat} {d : Decimal} (hs : s < 254) (hlow : -53 ≤ d.exponent)
    (hhigh : d.exponent < 40) (hdigits : 0 < d.digits) (hdigits' : d.digits ≤ fewBits)
    (hodd : 0 < odd) (hodd' : odd ≤ fewBits)
    (hworth : (2 ^ s / 2 ^ 150 : ℚ) ≤ 2 * 10 ^ d.exponent)
    (hnear : Within (1 / part) d.value (odd * (2 ^ s / 2 ^ 150 : ℚ)))
    (hne : d.value ≠ odd * (2 ^ s / 2 ^ 150 : ℚ)) : harmless d.exponent d.digits = true := by
  have hclear := windowsClear_of_lt hs hlow hhigh
  have hparts : 0 < 2 ^ 150 := by decide
  have hcast : (2 : ℚ) ^ 150 = (2 ^ 150 : Nat) := by norm_num
  rw [hcast] at hworth hnear hne
  -- `norm_num` would compute with the large power
  generalize 2 ^ 150 = parts at hclear hparts hworth hnear hne
  have hparts' : (0 : ℚ) < parts := Nat.cast_pos.mpr hparts
  generalize htop : 2 ^ s * 10 ^ (-d.exponent).toNat = top at hclear
  generalize hone : parts * 10 ^ d.exponent.toNat = one at hclear
  -- everything is multiplied by the denominators of the decimal and of the points
  have hstep : (2 ^ s / parts : ℚ) * (10 ^ (-d.exponent).toNat * parts) = top := by
    rw [← htop]
    push_cast
    field_simp
  have hdigit : (10 : ℚ) ^ d.exponent * (10 ^ (-d.exponent).toNat * parts) = one := by
    rw [ten_zpow, ← hone]
    push_cast
    field_simp
  have hunit : (0 : ℚ) < 10 ^ (-d.exponent).toNat * parts := by positivity
  generalize (10 ^ (-d.exponent).toNat * parts : ℚ) = unit at hstep hdigit hunit
  have hvalue : d.value * unit = one * d.digits := by
    rw [← hdigit, value]
    ring
  have hpoint : odd * (2 ^ s / parts : ℚ) * unit = top * odd := by
    rw [← hstep]
    ring
  obtain ⟨hbelow, habove⟩ := near_of_within hunit hvalue hpoint hnear
  have htop' : 0 < top := htop ▸ by positivity
  have hone' : 0 < one := hone ▸ by positivity
  refine harmless_of_windowsClear hclear htop' hone' ?_ hdigits hdigits' hodd hodd' hbelow habove ?_
  · qify
    rw [← hstep, ← hdigit, ← mul_assoc]
    exact mul_le_mul_of_nonneg_right hworth hunit.le
  · intro hsame
    qify at hsame
    rw [← hvalue, ← hpoint] at hsame
    exact hne (mul_right_cancel₀ hunit.ne' hsame)

end CavityConsole.Decimal

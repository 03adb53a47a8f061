import CavityConsole.Proofs.Binary.Nearest
import Mathlib.Algebra.Order.Field.Basic
import Mathlib.Algebra.Order.Ring.Abs
import Mathlib.Data.Rat.Cast.Order
import Mathlib.Tactic.FieldSimp
import Mathlib.Tactic.Linarith
import Mathlib.Tactic.Positivity
import Mathlib.Tactic.Qify

/-!
# Rounded values as rational numbers

A magnitude is a rational number (`Format.value`), and so is the point halfway to the next one
(`Format.halfway`). In these terms:

* `code_ofRatio_of_between`: a ratio between the halfway points of a code is rounded to it;
* `amount_ofRatio_of_representable`: a ratio that is a magnitude itself is kept;
* `within_ofRatio`: any other ratio moves by at most half a unit in its last place, as long as it
  has all its bits;
* `abs_sub_ofRatio_le`: every ratio moves by at most that, or half a least unit.

Products, quotients and conversions are single roundings, so each inherits all three.
-/

namespace CavityConsole.Binary

variable {f : Format}

/-- The number that a finite code stands for. -/
def Format.value (f : Format) (code : Nat) : ℚ := f.units code / 2 ^ f.scale

/-- Halfway from a magnitude to the next one. -/
def Format.halfway (f : Format) (code : Nat) : ℚ := (f.value code + f.value (code + 1)) / 2

theorem Format.halfway_eq (f : Format) (code : Nat) :
    f.halfway code = (f.units code + f.units (code + 1)) / (2 * 2 ^ f.scale) := by
  unfold Format.halfway Format.value
  field_simp

/-- Half a step is half a unit in the last place, or half a least unit. -/
theorem Format.half_step_le (f : Format) (code : Nat) :
    (f.step code : ℚ) / 2 / 2 ^ f.scale ≤
      f.value code / 2 ^ f.precision + 1 / 2 ^ (f.scale + 1) := by
  have hstep := f.binade_mul_step_le_add code
  have hbits : (2 : ℚ) ^ f.precision = 2 * f.binade := by exact_mod_cast f.two_mul_binade.symm
  have hbinade : (0 : ℚ) < f.binade := Nat.cast_pos.mpr f.binade_pos
  qify at hstep
  have hhalf : (f.step code : ℚ) / 2 ≤ f.units code / (2 * f.binade) + 1 / 2 := by
    rw [div_add_div _ _ (by positivity) (by norm_num),
      div_le_div_iff₀ (by norm_num) (by positivity)]
    linarith
  calc (f.step code : ℚ) / 2 / 2 ^ f.scale
      ≤ (f.units code / (2 * f.binade) + 1 / 2) / 2 ^ f.scale := by gcongr
    _ = f.value code / 2 ^ f.precision + 1 / 2 ^ (f.scale + 1) := by
      rw [Format.value, hbits, pow_succ']
      field_simp

/-- The number that a value stands for, without its sign. -/
def amount (x : Binary f) : ℚ := f.value x.code

theorem amount_eq (x : Binary f) : x.amount = x.units / 2 ^ f.scale := rfl

theorem amount_nonneg (x : Binary f) : 0 ≤ x.amount := by
  rw [amount_eq]
  positivity

theorem units_pos_of_amount_pos {x : Binary f} (h : 0 < x.amount) : 0 < x.units := by
  refine Nat.pos_of_ne_zero fun hzero => h.ne' ?_
  rw [amount_eq, hzero, Nat.cast_zero, zero_div]

/-- The numbers with few enough bits. -/
def Format.Representable (f : Format) (v : ℚ) : Prop :=
  ∃ n : Nat, n ≤ 2 ^ f.precision ∧ ∃ s : Nat, v = n * 2 ^ s / 2 ^ f.scale

/-- Few bits at a place that the format still has. -/
theorem Format.representable_scaled (f : Format) {n : Nat} (h : n ≤ 2 ^ f.precision) (s : Nat)
    {place : Nat} (hplace : place ≤ f.scale) : f.Representable (n * (2 ^ s / 2 ^ place)) := by
  refine ⟨n, h, s + (f.scale - place), ?_⟩
  obtain ⟨rest, hrest⟩ := Nat.exists_eq_add_of_le hplace
  rw [hrest, Nat.add_sub_cancel_left, pow_add, pow_add]
  field_simp

theorem Format.representable_natCast (f : Format) {n : Nat} (h : n ≤ 2 ^ f.precision) :
    f.Representable n := by
  simpa using f.representable_scaled h 0 (Nat.zero_le _)

/-- A number lies within a part of what it is rounded to. -/
structure Within (part exact rounded : ℚ) : Prop where
  low : rounded * (1 - part) ≤ exact
  high : exact ≤ rounded * (1 + part)

/-- A larger part leaves more room. -/
theorem Within.mono {p q t b : ℚ} (h : Within p t b) (hb : 0 ≤ b) (hle : p ≤ q) : Within q t b := by
  have hpart := mul_le_mul_of_nonneg_left hle hb
  constructor
  · exact le_trans (by linarith) h.low
  · exact h.high.trans (by linarith)

theorem Within.scale {p t b c : ℚ} (h : Within p t b) (hc : 0 ≤ c) :
    Within p (c * t) (c * b) := by
  constructor
  · rw [mul_assoc]
    exact mul_le_mul_of_nonneg_left h.low hc
  · rw [mul_assoc]
    exact mul_le_mul_of_nonneg_left h.high hc

section

variable {p q r s t a b : ℚ} (hp : 0 ≤ p) (hp' : p ≤ 1) (hq : 0 ≤ q) (hq' : q ≤ 1)
include hp hp' hq

/-- What is rounded twice is off by both parts. -/
theorem Within.trans (h : Within p t b) (h' : Within q b a) (ha : 0 ≤ a) :
    Within (p + q + p * q) t a := by
  constructor
  · calc a * (1 - (p + q + p * q)) ≤ a * ((1 - q) * (1 - p)) := by
          gcongr
          linarith [mul_nonneg hp hq]
      _ = a * (1 - q) * (1 - p) := by ring
      _ ≤ b * (1 - p) := mul_le_mul_of_nonneg_right h'.low (by linarith)
      _ ≤ t := h.low
  · calc t ≤ b * (1 + p) := h.high
      _ ≤ a * (1 + q) * (1 + p) := mul_le_mul_of_nonneg_right h'.high (by linarith)
      _ = a * (1 + (p + q + p * q)) := by ring

/-- A product of rounded numbers is off by both parts. -/
theorem Within.mul (h : Within p s a) (h' : Within q t b) (ha : 0 ≤ a) (ht : 0 ≤ t)
    (hb : 0 ≤ b) : Within (p + q + p * q) (s * t) (a * b) := by
  have hfirst := h.scale ht
  rw [mul_comm t s, mul_comm t a] at hfirst
  exact hfirst.trans hp hp' hq (h'.scale ha) (mul_nonneg ha hb)

end

/-- The inverse of a rounded number is off by little more than the number. -/
theorem Within.inv {q r t b : ℚ} (h : Within q t b) (ht : 0 < t) (hb : 0 < b) (hq : 0 ≤ q)
    (hr : 0 ≤ r) (hr' : r ≤ 1) (hqr : 1 ≤ (1 - q) * (1 + r)) : Within r t⁻¹ b⁻¹ := by
  have hless : q ≤ r := by linarith [mul_nonneg hq hr]
  constructor
  · rw [inv_mul_eq_div, div_le_iff₀ hb, inv_mul_eq_div, le_div_iff₀ ht]
    calc (1 - r) * t ≤ (1 - r) * (b * (1 + q)) :=
          mul_le_mul_of_nonneg_left h.high (by linarith)
      _ = b * (1 - (r - q + q * r)) := by ring
      _ ≤ b := mul_le_of_le_one_right hb.le (by linarith [mul_nonneg hq hr])
  · rw [inv_mul_eq_div, le_div_iff₀ hb, inv_mul_eq_div, div_le_iff₀ ht]
    calc b = b * 1 := (mul_one b).symm
      _ ≤ b * ((1 - q) * (1 + r)) := mul_le_mul_of_nonneg_left hqr hb.le
      _ = (1 + r) * (b * (1 - q)) := by ring
      _ ≤ (1 + r) * t := mul_le_mul_of_nonneg_left h.low (by linarith)

section

variable {a b t y u : ℚ} (hu : 0 < u) (hu' : u ≤ 1 / 4) (hy : 0 ≤ y) (h : Within u t b)
include hu hu' hy h

/-- A quotient by a rounded number, rounded itself, is off by little more than two roundings. -/
theorem Within.quotient (hb : 0 < b) (ht : 0 < t) (hresult : Within u (a / b) y) :
    Within (4 * u) (a / t) y := by
  obtain ⟨hlow, hhigh⟩ := hresult
  rw [le_div_iff₀ hb] at hlow
  rw [div_le_iff₀ hb] at hhigh
  constructor
  · rw [le_div_iff₀ ht]
    have hpart : 0 ≤ 1 - 4 * u := by linarith
    calc y * (1 - 4 * u) * t ≤ y * (1 - 4 * u) * (b * (1 + u)) := by
          gcongr
          exact h.high
      _ = y * b * ((1 + u) * (1 - 4 * u)) := by ring
      _ ≤ y * b * (1 - u) := by
          gcongr
          nlinarith
      _ = y * (1 - u) * b := by ring
      _ ≤ a := hlow
  · rw [div_le_iff₀ ht]
    calc a ≤ y * (1 + u) * b := hhigh
      _ = y * b * (1 + u) := by ring
      _ ≤ y * b * ((1 - u) * (1 + 4 * u)) := by
          gcongr
          nlinarith
      _ = y * (1 + 4 * u) * (b * (1 - u)) := by ring
      _ ≤ y * (1 + 4 * u) * t := by
          gcongr
          exact h.low

/-- A product with a rounded number, rounded itself, is off by little more than two roundings. -/
theorem Within.product (ha : 0 ≤ a) (hresult : Within u (a * b) y) :
    Within (4 * u) (a * t) y := by
  constructor
  · have hpart : 0 ≤ 1 - u := by linarith
    calc y * (1 - 4 * u) ≤ y * ((1 - u) * (1 - u)) := by
          gcongr
          nlinarith
      _ = y * (1 - u) * (1 - u) := by ring
      _ ≤ a * b * (1 - u) := mul_le_mul_of_nonneg_right hresult.low hpart
      _ = a * (b * (1 - u)) := by ring
      _ ≤ a * t := by
          gcongr
          exact h.low
  · calc a * t ≤ a * (b * (1 + u)) := by
          gcongr
          exact h.high
      _ = a * b * (1 + u) := by ring
      _ ≤ y * (1 + u) * (1 + u) := mul_le_mul_of_nonneg_right hresult.high (by linarith)
      _ = y * ((1 + u) * (1 + u)) := by ring
      _ ≤ y * (1 + 4 * u) := by
          gcongr
          nlinarith

end

/-! ## One rounding -/

section

variable {negative : Bool} {num den : Nat}

/-- A ratio between the halfway points of a code is rounded to that code. -/
theorem code_ofRatio_of_between {code : Nat} (hden : 0 < den) (hpos : 0 < code)
    (hfinite : code < f.infinity) (hlow : f.halfway (code - 1) ≤ (num : ℚ) / den)
    (hhigh : (num : ℚ) / den ≤ f.halfway code)
    (htie : f.halfway (code - 1) = (num : ℚ) / den ∨ (num : ℚ) / den = f.halfway code →
      code % 2 = 0) :
    (ofRatio negative num den : Binary f).code = code := by
  have hden' : (0 : ℚ) < den := Nat.cast_pos.mpr hden
  have hunit : (0 : ℚ) < 2 * 2 ^ f.scale := by positivity
  rw [f.halfway_eq (code - 1), Nat.sub_add_cancel hpos] at hlow htie
  rw [f.halfway_eq code] at hhigh htie
  refine code_ofRatio_of_nearest hden ⟨?_, ?_, fun h => htie ?_⟩ hfinite
  · rw [div_le_div_iff₀ hunit hden'] at hlow
    qify
    linarith
  · rw [div_le_div_iff₀ hden' hunit] at hhigh
    qify
    linarith
  · rw [div_eq_div_iff hunit.ne' hden'.ne', div_eq_div_iff hden'.ne' hunit.ne']
    refine h.imp (fun h => ?_) fun h => ?_
    · qify at h
      linarith
    · qify at h
      linarith

/-- A number with few enough bits is kept. -/
theorem amount_ofRatio_of_representable (hden : 0 < den)
    (hfinite : (ofRatio negative num den : Binary f).isFinite = true)
    (h : f.Representable ((num : ℚ) / den)) :
    (ofRatio negative num den : Binary f).amount = num / den := by
  obtain ⟨n, hn, s, hvalue⟩ := h
  have hden' : (den : ℚ) ≠ 0 := Nat.cast_ne_zero.mpr hden.ne'
  have hexact : num * 2 ^ f.scale = n * 2 ^ s * den := by
    rw [div_eq_div_iff hden' (by positivity)] at hvalue
    qify
    exact hvalue
  rw [amount_eq, units_ofRatio_of_exact hden hfinite hn hexact, hvalue]
  push_cast
  rfl

/-- What is not above some finite magnitude is rounded to a finite value. -/
theorem isFinite_ofRatio_of_le {bound : Nat} (hden : 0 < den) (hbound : bound < f.infinity)
    (h : (num : ℚ) / den ≤ f.value bound) :
    (ofRatio negative num den : Binary f).isFinite = true := by
  have hunits : num * 2 ^ f.scale ≤ f.units bound * den := by
    rw [Format.value, div_le_div_iff₀ (Nat.cast_pos.mpr hden) (by positivity)] at h
    exact_mod_cast h
  have hcode := (nearest_nearestCode f _ hden).code_le hden hunits
  have hleast : (ofRatio negative num den : Binary f).code ≤
      f.nearestCode (num * 2 ^ f.scale) den := Nat.min_le_left _ _
  exact decide_eq_true (by omega)

/-- What is not below some magnitude is not rounded below it. -/
theorem le_amount_ofRatio {bound : Nat} (hden : 0 < den)
    (hfinite : (ofRatio negative num den : Binary f).isFinite = true)
    (h : f.value bound ≤ (num : ℚ) / den) :
    f.value bound ≤ (ofRatio negative num den : Binary f).amount := by
  have hunits : f.units bound * den ≤ num * 2 ^ f.scale := by
    rw [Format.value, div_le_div_iff₀ (by positivity) (Nat.cast_pos.mpr hden)] at h
    exact_mod_cast h
  have hcode := (nearest_code_ofRatio hden hfinite).le_code hden hunits
  have hle := f.units_strictMono.monotone hcode
  rw [amount, Format.value, Format.value]
  gcongr

/-- **Rounding moves a number by at most half a unit in the last place**, or by half a least unit
where the number does not have all its bits. -/
theorem abs_sub_ofRatio_le (hden : 0 < den)
    (hfinite : (ofRatio negative num den : Binary f).isFinite = true) :
    |(num : ℚ) / den - (ofRatio negative num den : Binary f).amount| ≤
      (ofRatio negative num den : Binary f).amount / 2 ^ f.precision + 1 / 2 ^ (f.scale + 1) := by
  have hden' : (0 : ℚ) < den := Nat.cast_pos.mpr hden
  obtain ⟨hlow, hhigh, -⟩ := nearest_code_ofRatio hden hfinite
  rw [amount, Format.value]
  generalize (ofRatio negative num den : Binary f).code = code at hlow hhigh
  have hhalf := f.half_step_le code
  have hbefore := f.units_le_pred code
  have hone : (0 : ℚ) < 2 ^ f.scale := by positivity
  rw [f.units_succ] at hhigh
  rw [Format.value] at hhalf
  qify at hlow hhigh hbefore
  generalize (f.units code : ℚ) = u at *
  generalize (f.units (code - 1) : ℚ) = before at *
  have habove : (num : ℚ) / den ≤ (u + f.step code / 2) / 2 ^ f.scale := by
    rw [div_le_div_iff₀ hden' hone]
    linarith
  have hbelow : (u - f.step code / 2) / 2 ^ f.scale ≤ (num : ℚ) / den := by
    rw [div_le_div_iff₀ hone hden']
    have hless := mul_le_mul_of_nonneg_right hbefore hden'.le
    linarith
  refine le_trans (abs_sub_le_iff.mpr ⟨?_, ?_⟩) hhalf
  · calc (num : ℚ) / den - u / 2 ^ f.scale
        ≤ (u + f.step code / 2) / 2 ^ f.scale - u / 2 ^ f.scale := sub_le_sub_right habove _
      _ = f.step code / 2 / 2 ^ f.scale := by ring
  · calc u / 2 ^ f.scale - (num : ℚ) / den
        ≤ u / 2 ^ f.scale - (u - f.step code / 2) / 2 ^ f.scale := sub_le_sub_left hbelow _
      _ = f.step code / 2 / 2 ^ f.scale := by ring

/-- A number below a power of two is rounded to a finite value while the format has room for one
more. -/
theorem isFinite_ofRatio_of_lt {k : Nat} (hden : 0 < den) (h : (num : ℚ) / den < 2 ^ k)
    (hk : f.scale + k - f.precision + 2 < 2 ^ f.exponentBits - 1) :
    (ofRatio negative num den : Binary f).isFinite = true := by
  rw [div_lt_iff₀ (Nat.cast_pos.mpr hden), mul_comm] at h
  exact isFinite_ofRatio (by exact_mod_cast h) hk

/-- **Rounding moves a number by at most half a unit in the last place**, unless it is so small that
it does not have all its bits. -/
theorem within_ofRatio (hden : 0 < den)
    (hfinite : (ofRatio negative num den : Binary f).isFinite = true)
    (hnormal : f.value f.binade ≤ (num : ℚ) / den) :
    Within (1 / 2 ^ f.precision) ((num : ℚ) / den)
      (ofRatio negative num den : Binary f).amount := by
  have hden' : (0 : ℚ) < den := Nat.cast_pos.mpr hden
  have hone : (0 : ℚ) < 2 ^ f.scale := by positivity
  have hleast : f.units f.binade = f.binade := by
    have hunits := f.units_shift (s := 0) (n := f.binade) (by omega) (.inl rfl)
    simpa using hunits
  have hlarge : f.binade * den ≤ num * 2 ^ f.scale := by
    rw [Format.value, hleast, div_le_div_iff₀ hone hden'] at hnormal
    qify
    exact hnormal
  have hnearest := nearest_code_ofRatio hden hfinite
  obtain ⟨habove, hbelow⟩ := hnearest.error (hnearest.binade_le hlarge hden)
  rw [amount, Format.value]
  generalize f.units (ofRatio negative num den : Binary f).code = u at habove hbelow
  qify at habove hbelow
  constructor
  · calc (u : ℚ) / 2 ^ f.scale * (1 - 1 / 2 ^ f.precision)
        = (2 ^ f.precision * (u * den) - u * den) / (2 ^ f.precision * (den * 2 ^ f.scale)) := by
          field_simp
      _ ≤ 2 ^ f.precision * (num * 2 ^ f.scale) / (2 ^ f.precision * (den * 2 ^ f.scale)) := by
          gcongr
          linarith
      _ = num / den := by field_simp
  · calc (num : ℚ) / den = 2 ^ f.precision * (num * 2 ^ f.scale) /
          (2 ^ f.precision * (den * 2 ^ f.scale)) := by field_simp
      _ ≤ (2 ^ f.precision + 1) * (u * den) / (2 ^ f.precision * (den * 2 ^ f.scale)) := by gcongr
      _ = u / 2 ^ f.scale * (1 + 1 / 2 ^ f.precision) := by field_simp

end

/-! ## Products -/

section

variable {x y : Binary f}

theorem ratio_mul (x y : Binary f) :
    ((x.units * y.units : Nat) : ℚ) / (Nat.pow 2 (2 * f.scale) : Nat) = x.amount * y.amount := by
  show ((x.units * y.units : Nat) : ℚ) / (2 ^ (2 * f.scale) : Nat) = _
  rw [amount_eq, amount_eq]
  push_cast
  rw [two_mul, pow_add]
  field_simp

/-- A product that lies between the halfway points of a code is rounded to it. -/
theorem code_mul_of_between {code : Nat} (hpos : 0 < code) (hfinite : code < f.infinity)
    (hlow : f.halfway (code - 1) ≤ x.amount * y.amount)
    (hhigh : x.amount * y.amount ≤ f.halfway code)
    (htie : f.halfway (code - 1) = x.amount * y.amount ∨ x.amount * y.amount = f.halfway code →
      code % 2 = 0) :
    (x.mul y).code = code := by
  rw [← ratio_mul] at hlow hhigh htie
  exact code_ofRatio_of_between (Nat.two_pow_pos _) hpos hfinite hlow hhigh htie

theorem isFinite_mul_of_le {bound : Nat} (hbound : bound < f.infinity)
    (h : x.amount * y.amount ≤ f.value bound) : (x.mul y).isFinite = true := by
  rw [← ratio_mul] at h
  exact isFinite_ofRatio_of_le (Nat.two_pow_pos _) hbound h

theorem abs_sub_mul_le (hfinite : (x.mul y).isFinite = true) :
    |x.amount * y.amount - (x.mul y).amount| ≤
      (x.mul y).amount / 2 ^ f.precision + 1 / 2 ^ (f.scale + 1) := by
  rw [← ratio_mul]
  exact abs_sub_ofRatio_le (Nat.two_pow_pos _) hfinite

theorem isFinite_mul_of_lt {k : Nat} (h : x.amount * y.amount < 2 ^ k)
    (hk : f.scale + k - f.precision + 2 < 2 ^ f.exponentBits - 1) :
    (x.mul y).isFinite = true := by
  rw [← ratio_mul] at h
  exact isFinite_ofRatio_of_lt (Nat.two_pow_pos _) h hk

theorem amount_mul_of_representable (hfinite : (x.mul y).isFinite = true)
    (h : f.Representable (x.amount * y.amount)) : (x.mul y).amount = x.amount * y.amount := by
  rw [← ratio_mul] at h ⊢
  exact amount_ofRatio_of_representable (Nat.two_pow_pos _) hfinite h

theorem within_mul (hfinite : (x.mul y).isFinite = true)
    (hnormal : f.value f.binade ≤ x.amount * y.amount) :
    Within (1 / 2 ^ f.precision) (x.amount * y.amount) (x.mul y).amount := by
  rw [← ratio_mul] at hnormal ⊢
  exact within_ofRatio (Nat.two_pow_pos _) hfinite hnormal

end

/-! ## Quotients -/

section

variable {x y : Binary f} (hy : 0 < y.amount)

theorem ratio_div (x y : Binary f) : (x.units : ℚ) / y.units = x.amount / y.amount := by
  rw [amount_eq, amount_eq]
  field_simp

include hy

theorem isFinite_div_of_lt {k : Nat} (h : x.amount / y.amount < 2 ^ k)
    (hk : f.scale + k - f.precision + 2 < 2 ^ f.exponentBits - 1) :
    (x.div y).isFinite = true := by
  rw [← ratio_div] at h
  exact isFinite_ofRatio_of_lt (units_pos_of_amount_pos hy) h hk

theorem isFinite_div_of_le {bound : Nat} (hbound : bound < f.infinity)
    (h : x.amount / y.amount ≤ f.value bound) : (x.div y).isFinite = true := by
  rw [← ratio_div] at h
  exact isFinite_ofRatio_of_le (units_pos_of_amount_pos hy) hbound h

/-- A quotient by a number that is not below one is finite. -/
theorem isFinite_div_of_one_le (hfinite : x.isFinite = true) (hone : 1 ≤ y.amount) :
    (x.div y).isFinite = true := by
  have hcode : x.code < f.infinity := of_decide_eq_true hfinite
  refine isFinite_div_of_le hy hcode ?_
  exact div_le_self (amount_nonneg x) hone

/-- A quotient that lies between the halfway points of a code is rounded to it. -/
theorem code_div_of_between {code : Nat} (hpos : 0 < code) (hfinite : code < f.infinity)
    (hlow : f.halfway (code - 1) ≤ x.amount / y.amount)
    (hhigh : x.amount / y.amount ≤ f.halfway code)
    (htie : f.halfway (code - 1) = x.amount / y.amount ∨ x.amount / y.amount = f.halfway code →
      code % 2 = 0) :
    (x.div y).code = code := by
  rw [← ratio_div] at hlow hhigh htie
  exact code_ofRatio_of_between (units_pos_of_amount_pos hy) hpos hfinite hlow hhigh htie

theorem abs_sub_div_le (hfinite : (x.div y).isFinite = true) :
    |x.amount / y.amount - (x.div y).amount| ≤
      (x.div y).amount / 2 ^ f.precision + 1 / 2 ^ (f.scale + 1) := by
  rw [← ratio_div]
  exact abs_sub_ofRatio_le (units_pos_of_amount_pos hy) hfinite

theorem amount_div_of_representable (hfinite : (x.div y).isFinite = true)
    (h : f.Representable (x.amount / y.amount)) : (x.div y).amount = x.amount / y.amount := by
  rw [← ratio_div] at h ⊢
  exact amount_ofRatio_of_representable (units_pos_of_amount_pos hy) hfinite h

theorem within_div (hfinite : (x.div y).isFinite = true)
    (hnormal : f.value f.binade ≤ x.amount / y.amount) :
    Within (1 / 2 ^ f.precision) (x.amount / y.amount) (x.div y).amount := by
  rw [← ratio_div] at hnormal ⊢
  exact within_ofRatio (units_pos_of_amount_pos hy) hfinite hnormal

end

/-! ## Conversions -/

theorem ratio_convert (x : Binary f) : (x.units : ℚ) / (Nat.pow 2 f.scale : Nat) = x.amount := by
  show (x.units : ℚ) / (2 ^ f.scale : Nat) = _
  rw [amount_eq]
  push_cast
  rfl

theorem negative_convert (g : Format) (x : Binary f) : (x.convert g).negative = x.negative := by
  unfold convert
  split
  · rfl
  · split <;> rfl

theorem code_convert_neg (g : Format) (x : Binary f) :
    ((-x).convert g).code = (x.convert g).code := by
  have hsame : (-x).isFinite = x.isFinite ∧ (-x).isNaN = x.isNaN := ⟨rfl, rfl⟩
  unfold convert
  rw [hsame.1, hsame.2]
  split
  · rfl
  · split <;> rfl

/-- A magnitude that is converted gives its sign along. -/
theorem convert_signed {g : Format} {x : Binary f} {y : Binary g} (hx : x.negative = false)
    (hcode : (x.convert g).code = y.code) : (if y.negative then -x else x).convert g = y := by
  obtain ⟨negative, code, hlt⟩ := y
  have hnegative : ((if negative then -x else x).convert g).negative = negative := by
    rw [negative_convert]
    cases negative with
    | false => exact hx
    | true =>
      show (!x.negative) = true
      rw [hx]
      rfl
  have hmagnitude : ((if negative then -x else x).convert g).code = code := by
    cases negative with
    | false => exact hcode
    | true => exact (code_convert_neg g x).trans hcode
  generalize (if negative then -x else x).convert g = z at hnegative hmagnitude ⊢
  obtain ⟨sign, magnitude, hz⟩ := z
  subst hnegative hmagnitude
  rfl

/-- A finite value between the halfway points of a code is converted to that code. -/
theorem code_convert_of_between {g : Format} {x : Binary f} {code : Nat} (hx : x.isFinite = true)
    (hpos : 0 < code) (hfinite : code < g.infinity) (hlow : g.halfway (code - 1) ≤ x.amount)
    (hhigh : x.amount ≤ g.halfway code)
    (htie : g.halfway (code - 1) = x.amount ∨ x.amount = g.halfway code → code % 2 = 0) :
    (x.convert g).code = code := by
  rw [convert, if_pos hx]
  rw [← ratio_convert] at hlow hhigh htie
  exact code_ofRatio_of_between (Nat.two_pow_pos _) hpos hfinite hlow hhigh htie

end CavityConsole.Binary

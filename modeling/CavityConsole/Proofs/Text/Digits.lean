import CavityConsole.Decimal.Reading
import CavityConsole.Decimal.Shortest
import Mathlib.Algebra.Group.Nat.Defs
import Mathlib.Data.List.Basic

/-!
# Runs of digits

Readers of numbers take digits up to the first character that is none (`span_digits`). The number
that digits stand for grows with every digit (`le_ofDigitChars`) and stays below the power of ten of
their count (`ofDigitChars_lt`). A sign in front of them is taken off (`exists_takeSign`), and from
digits nothing is (`takeSign_of_digit`).
-/

namespace CavityConsole

/-- The text does not start with a digit. -/
def NoDigit (rest : List Char) : Prop := ∀ c ∈ rest.head?, c.isDigit = false

theorem noDigit_cons {c : Char} (rest : List Char) (h : c.isDigit = false) :
    NoDigit (c :: rest) := by
  intro d hd
  cases hd
  exact h

/-- Digits are taken up to the first character that is none. -/
theorem span_digits {digits rest : List Char} (hdigits : ∀ c ∈ digits, c.isDigit = true)
    (hrest : NoDigit rest) :
    (digits ++ rest).takeWhile Char.isDigit = digits ∧
      (digits ++ rest).dropWhile Char.isDigit = rest := by
  rw [List.takeWhile_append_of_pos hdigits, List.dropWhile_append_of_pos hdigits]
  cases rest with
  | nil => simp
  | cons c rest =>
    have hc : c.isDigit = false := hrest c rfl
    simp [hc]

theorem le_ofDigitChars (digits : List Char) (start : Nat) :
    start ≤ Nat.ofDigitChars 10 digits start := by
  rw [Nat.ofDigitChars_eq_ofDigitChars_zero]
  have hpow : 0 < 10 ^ digits.length := Nat.pow_pos (by decide)
  exact Nat.le_trans (Nat.le_mul_of_pos_left start hpow) (Nat.le_add_right _ _)

theorem digit_le {c : Char} (h : c.isDigit = true) : c.toNat - '0'.toNat ≤ 9 := by
  simp only [Char.isDigit, Bool.and_eq_true, decide_eq_true_eq] at h
  have hhigh : c.toNat ≤ '9'.toNat := h.2
  have hspan : '9'.toNat - '0'.toNat = 9 := rfl
  omega

theorem ofDigitChars_lt {digits : List Char} (h : ∀ c ∈ digits, c.isDigit = true) (start : Nat) :
    Nat.ofDigitChars 10 digits start < 10 ^ digits.length * (start + 1) := by
  induction digits generalizing start with
  | nil => simp
  | cons c digits ih =>
    obtain ⟨hc, hdigits⟩ := List.forall_mem_cons.mp h
    have hvalue := digit_le hc
    rw [Nat.ofDigitChars_cons]
    calc Nat.ofDigitChars 10 digits (10 * start + (c.toNat - '0'.toNat))
        < 10 ^ digits.length * (10 * start + (c.toNat - '0'.toNat) + 1) := ih hdigits _
      _ ≤ 10 ^ digits.length * (10 * (start + 1)) := Nat.mul_le_mul_left _ (by omega)
      _ = 10 ^ (c :: digits).length * (start + 1) := by
        rw [List.length_cons, Nat.pow_succ, Nat.mul_assoc]

theorem isDigit_of_mem_digitText {n : Nat} {c : Char} (h : c ∈ Decimal.digitText n) :
    c.isDigit = true :=
  Nat.isDigit_of_mem_toDigits (by decide) (by decide) h

/-- No sign is taken off a digit. -/
theorem takeSign_of_digit {c : Char} (h : c.isDigit = true) (rest : List Char) :
    Decimal.takeSign (c :: rest) = (false, c :: rest) := by
  unfold Decimal.takeSign
  split
  next heq => cases heq; cases h
  next heq => cases heq; cases h
  next => rfl

theorem exists_takeSign (cs : List Char) :
    ∃ sign tail, cs = sign ++ tail ∧ (sign = [] ∨ sign = ['+'] ∨ sign = ['-']) ∧
      Decimal.takeSign cs = (decide (sign = ['-']), tail) := by
  unfold Decimal.takeSign
  split
  next rest => exact ⟨['-'], rest, rfl, .inr (.inr rfl), rfl⟩
  next rest => exact ⟨['+'], rest, rfl, .inr (.inl rfl), rfl⟩
  next => exact ⟨[], cs, rfl, .inl rfl, rfl⟩

end CavityConsole

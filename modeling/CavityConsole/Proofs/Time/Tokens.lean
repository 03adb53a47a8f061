import CavityConsole.Proofs.Text.Digits
import CavityConsole.Time.Timestamp

/-!
# The pieces of a written time

A written time is made of numbers of fixed width, marks between them, a fraction and a zone. Each
reader is described by the texts that it takes (`number_eq_some_iff`, `mark_eq_some_iff`), and each
writer by what the reader makes of its text in front of anything that cannot go on it
(`number_padded`, `fraction_fractionDigits`, `zone_zoneText`).
-/

namespace CavityConsole.Timestamp

/-! ## Numbers of fixed width -/

/-- **A number is exactly so many digits**, whatever follows. -/
theorem number_eq_some_iff {width n : Nat} {cs rest : List Char} :
    number width cs = some (n, rest) ↔
      ∃ digits, cs = digits ++ rest ∧ digits.length = width ∧ (∀ c ∈ digits, c.isDigit = true) ∧
        Nat.ofDigitChars 10 digits 0 = n := by
  unfold number
  dsimp only
  constructor
  · intro h
    split at h
    next hdigits =>
      cases h
      exact ⟨cs.take width, (List.take_append_drop width cs).symm, hdigits.1,
        List.all_eq_true.mp hdigits.2, rfl⟩
    next => cases h
  · rintro ⟨digits, rfl, rfl, hdigits, rfl⟩
    rw [List.take_left, List.drop_left, if_pos ⟨rfl, List.all_eq_true.mpr hdigits⟩]

theorem lt_of_number {width n : Nat} {cs rest : List Char} (h : number width cs = some (n, rest)) :
    n < 10 ^ width := by
  obtain ⟨digits, -, rfl, hdigits, rfl⟩ := number_eq_some_iff.mp h
  simpa using ofDigitChars_lt hdigits 0

theorem isDigit_of_mem_padded {c : Char} (width : Nat) {n : Nat} (h : c ∈ padded width n) :
    c.isDigit = true := by
  rcases List.mem_append.mp h with hzero | hdigit
  · rw [List.eq_of_mem_replicate hzero]
    rfl
  · exact Nat.isDigit_of_mem_toDigits (by decide) (by decide) hdigit

theorem ofDigitChars_padded (width n : Nat) : Nat.ofDigitChars 10 (padded width n) 0 = n := by
  rw [padded, Nat.ofDigitChars_append, Nat.ofDigitChars_replicate_zero, Nat.mul_zero]
  exact Nat.ofDigitChars_ten_toDigits

theorem length_padded {width n : Nat} (hwidth : 0 < width) (h : n < 10 ^ width) :
    (padded width n).length = width := by
  have hdigits : (Decimal.digitText n).length ≤ width :=
    (Nat.length_toDigits_le_iff (by decide) hwidth).mpr h
  rw [padded, List.length_append, List.length_replicate, Nat.sub_add_cancel hdigits]

theorem number_padded (width : Nat) {n : Nat} (hwidth : 0 < width) (h : n < 10 ^ width)
    (rest : List Char) : number width (padded width n ++ rest) = some (n, rest) :=
  number_eq_some_iff.mpr ⟨padded width n, rfl, length_padded hwidth h,
    fun _ => isDigit_of_mem_padded width, ofDigitChars_padded width n⟩

theorem mark_eq_some_iff {c : Char} {cs rest : List Char} :
    mark c cs = some rest ↔ cs = c :: rest := by
  cases cs with
  | nil => simp [mark]
  | cons d cs => simp [mark, eq_comm]

theorem mark_cons (c : Char) (rest : List Char) : mark c (c :: rest) = some rest :=
  mark_eq_some_iff.mpr rfl

/-! ## Fractions of a second -/

/-- The zeros at the end of a fraction are not written. -/
theorem fractionDigits_append (width n : Nat) :
    ∃ zeros, padded width n = Duration.fractionDigits width n ++ List.replicate zeros '0' := by
  have hzeros : (padded width n).reverse.takeWhile (· == '0') =
      List.replicate ((padded width n).reverse.takeWhile (· == '0')).length '0' := by
    refine List.eq_replicate_of_mem fun c hc => ?_
    exact eq_of_beq (List.all_eq_true.mp List.all_takeWhile c hc)
  refine ⟨((padded width n).reverse.takeWhile (· == '0')).length, ?_⟩
  calc padded width n
      = ((padded width n).reverse.takeWhile (· == '0') ++
          (padded width n).reverse.dropWhile (· == '0')).reverse := by
        rw [List.takeWhile_append_dropWhile, List.reverse_reverse]
    _ = Duration.fractionDigits width n ++
          ((padded width n).reverse.takeWhile (· == '0')).reverse := List.reverse_append
    _ = _ := by rw [hzeros, List.reverse_replicate, List.length_replicate]

/-- The digits of a fraction stand for the nanoseconds that they were written for. -/
theorem nanoseconds_fractionDigits {n : Nat} (h : n < 10 ^ 9) :
    nanoseconds (Duration.fractionDigits 9 n) = n := by
  obtain ⟨zeros, hzeros⟩ := fractionDigits_append 9 n
  have hlength : (Duration.fractionDigits 9 n).length + zeros = 9 := by
    have hpadded := length_padded (by decide) h
    rwa [hzeros, List.length_append, List.length_replicate] at hpadded
  have hvalue := ofDigitChars_padded 9 n
  rw [hzeros, Nat.ofDigitChars_append, Nat.ofDigitChars_replicate_zero] at hvalue
  have hleft : 9 - (Duration.fractionDigits 9 n).length = zeros := by omega
  rw [nanoseconds, List.take_of_length_le (by omega), hleft, Nat.mul_comm]
  exact hvalue

theorem fractionDigits_ne_nil {n : Nat} (h : 0 < n) : Duration.fractionDigits 9 n ≠ [] := by
  intro hnil
  obtain ⟨zeros, hzeros⟩ := fractionDigits_append 9 n
  have hvalue := ofDigitChars_padded 9 n
  rw [hzeros, hnil, List.nil_append, Nat.ofDigitChars_replicate_zero, Nat.mul_zero] at hvalue
  omega

/-- A text that cannot go on a fraction, or be one. -/
def Unfractioned (rest : List Char) : Prop := ∀ c ∈ rest.head?, c.isDigit = false ∧ c ≠ '.'

theorem Unfractioned.noDigit {rest : List Char} (h : Unfractioned rest) : NoDigit rest :=
  fun c hc => (h c hc).1

theorem fraction_of_unfractioned {rest : List Char} (h : Unfractioned rest) (most : Option Nat) :
    fraction most rest = some (0, rest) := by
  unfold fraction
  split
  next more => exact absurd rfl (h '.' rfl).2
  next => rfl

theorem unfractioned_nil : Unfractioned [] := by
  intro c hc
  cases hc

/-- Digits behind a point are a fraction, if they are not too many. -/
theorem fraction_digits {most : Option Nat} {digits rest : List Char} (hne : digits ≠ [])
    (hdigits : ∀ c ∈ digits, c.isDigit = true) (hmost : ∀ m ∈ most, digits.length ≤ m)
    (hrest : NoDigit rest) :
    fraction most ('.' :: (digits ++ rest)) = some (nanoseconds digits, rest) := by
  have hfew : most.any (· < digits.length) = false := by
    cases most with
    | none => rfl
    | some m => simpa using hmost m rfl
  obtain ⟨htake, hdrop⟩ := span_digits hdigits hrest
  rw [fraction]
  simp only [htake, hdrop, hfew, List.isEmpty_iff, hne, Bool.false_eq_true, or_self, if_false]

/-- The fraction as it is written: nothing where there is none. -/
def fractionText (n : Nat) : List Char :=
  if n = 0 then [] else '.' :: Duration.fractionDigits 9 n

theorem fraction_fractionText {n : Nat} (h : n < 10 ^ 9) {most : Option Nat}
    (hmost : ∀ m ∈ most, 9 ≤ m) {rest : List Char} (hrest : Unfractioned rest) :
    fraction most (fractionText n ++ rest) = some (n, rest) := by
  unfold fractionText
  split
  next hzero =>
    rw [hzero]
    exact fraction_of_unfractioned hrest most
  next hzero =>
    obtain ⟨zeros, hzeros⟩ := fractionDigits_append 9 n
    have hdigits : ∀ c ∈ Duration.fractionDigits 9 n, c.isDigit = true := fun c hc =>
      isDigit_of_mem_padded 9 (hzeros ▸ List.mem_append_left _ hc)
    have hlength : (Duration.fractionDigits 9 n).length ≤ 9 := by
      have hpadded := length_padded (by decide) h
      rw [hzeros, List.length_append] at hpadded
      omega
    rw [List.cons_append, fraction_digits (fractionDigits_ne_nil (Nat.pos_of_ne_zero hzero)) hdigits
      (fun m hm => Nat.le_trans hlength (hmost m hm)) hrest.noDigit, nanoseconds_fractionDigits h]

/-! ## Zones -/

/-- The zone of so many minutes to one side of universal time. -/
theorem ofNumbers?_distance (offset : ZoneOffset) :
    ZoneOffset.ofNumbers? (decide (offset.minutes < 0)) (offset.minutes.natAbs / 60)
      (offset.minutes.natAbs % 60) = some offset := by
  have hlt := offset.minutes_lt
  rw [ZoneOffset.ofNumbers?, dif_pos ⟨by omega, by omega⟩]
  refine congrArg some ?_
  obtain ⟨minutes, hminutes⟩ := offset
  dsimp only at *
  split
  next hneg =>
    have hneg := of_decide_eq_true hneg
    rw [ZoneOffset.mk.injEq]
    omega
  next hneg =>
    have hneg : ¬ minutes < 0 := fun h => hneg (decide_eq_true h)
    rw [ZoneOffset.mk.injEq]
    omega

theorem zone_zoneText (offset : ZoneOffset) : zone (zoneText offset) = some offset := by
  unfold zoneText
  split
  next hzero =>
    obtain ⟨minutes, hminutes⟩ := offset
    cases hzero
    rfl
  next hzero =>
    have hlt := offset.minutes_lt
    have hhours := number_padded 2 (n := offset.minutes.natAbs / 60) (by decide)
      (by omega) (':' :: padded 2 (offset.minutes.natAbs % 60))
    have hminutes := number_padded 2 (n := offset.minutes.natAbs % 60) (by decide)
      (by omega) []
    rw [List.append_nil] at hminutes
    have hoffset := ofNumbers?_distance offset
    dsimp only
    split
    next hneg =>
      simp only [hneg, decide_true] at hoffset
      simp [zone, hhours, hminutes, mark_cons, hoffset]
    next hneg =>
      simp only [hneg, decide_false] at hoffset
      simp [zone, hhours, hminutes, mark_cons, hoffset]

end CavityConsole.Timestamp

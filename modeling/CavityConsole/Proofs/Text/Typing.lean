import CavityConsole.Proofs.Text.Digits
import CavityConsole.Text.Blank
import CavityConsole.Text.Integer
import Mathlib.Algebra.Group.Int.Defs
import Mathlib.Data.List.DropRight

/-!
# What is typed: blanks and whole numbers

A text is trimmed to what stands between its first and its last character that is no white space
(`trim_spec`); nothing is left exactly of a blank text (`trim_eq_nil_iff`).

A whole number is digits with at most one sign in front (`WholeNumber`). The reader goes from digit
to digit with the number so far and a bound. It stops at the first digit that takes the number beyond
the bound, and as a number only grows with its digits, it reads exactly the numbers within the bound
(`readInt_eq_ok_iff`).
-/

namespace CavityConsole.Text

/-! ## Blanks -/

theorem trim_eq_nil_iff (cs : List Char) : trim cs = [] ↔ ∀ c ∈ cs, isBlank c = true := by
  have htrim : trim cs = (cs.dropWhile isBlank).rdropWhile isBlank := rfl
  rw [htrim, List.rdropWhile_eq_nil_iff]
  constructor
  · intro h
    rw [← List.dropWhile_eq_nil_iff]
    -- what is left would start with a character that is no white space
    by_contra hne
    exact absurd (h _ (List.head_mem hne)) (by simp [List.head_dropWhile_not isBlank hne])
  · intro h c hc
    exact h c ((List.dropWhile_suffix isBlank).subset hc)

/-- **Only white space is trimmed**, and all of it at both ends. -/
theorem trim_spec (cs : List Char) :
    ∃ front back, cs = front ++ trim cs ++ back ∧ (∀ c ∈ front, isBlank c = true) ∧
      (∀ c ∈ back, isBlank c = true) ∧ (∀ c ∈ (trim cs).head?, isBlank c = false) ∧
      ∀ c ∈ (trim cs).getLast?, isBlank c = false := by
  have htrim : trim cs = (cs.dropWhile isBlank).rdropWhile isBlank := rfl
  rw [htrim]
  refine ⟨cs.takeWhile isBlank, (cs.dropWhile isBlank).rtakeWhile isBlank, ?_,
    fun c => List.mem_takeWhile_imp, fun c => List.mem_rtakeWhile_imp, fun c hc => ?_,
    fun c hc => ?_⟩
  · rw [List.append_assoc, List.rdropWhile_append_rtakeWhile, List.takeWhile_append_dropWhile]
  · have hfirst := List.head?_dropWhile_not isBlank cs
    obtain ⟨tail, htail⟩ := List.rdropWhile_prefix isBlank (cs.dropWhile isBlank)
    rw [← htail, List.head?_append, Option.mem_def.mp hc] at hfirst
    exact hfirst
  · obtain ⟨hne, rfl⟩ := List.mem_getLast?_eq_getLast hc
    exact eq_false_of_ne_true (List.rdropWhile_last_not isBlank _ hne)

/-! ## Whole numbers -/

/-- A whole number as it is typed. -/
inductive WholeNumber : List Char → Int → Prop where
  | plain {digits : List Char} (nonempty : digits ≠ []) (all : ∀ c ∈ digits, c.isDigit = true) :
    WholeNumber digits (Nat.ofDigitChars 10 digits 0)
  | plus {digits : List Char} (nonempty : digits ≠ []) (all : ∀ c ∈ digits, c.isDigit = true) :
    WholeNumber ('+' :: digits) (Nat.ofDigitChars 10 digits 0)
  | minus {digits : List Char} (nonempty : digits ≠ []) (all : ∀ c ∈ digits, c.isDigit = true) :
    WholeNumber ('-' :: digits) (-(Nat.ofDigitChars 10 digits 0 : Int))

/-- Digits are read within a bound when the number that they stand for is. -/
theorem boundedDigits_eq_ok_iff {bound soFar n : Nat} {cs : List Char} (h : soFar ≤ bound) :
    boundedDigits bound soFar cs = .ok n ↔
      (∀ c ∈ cs, c.isDigit = true) ∧ Nat.ofDigitChars 10 cs soFar = n ∧ n ≤ bound := by
  induction cs generalizing soFar with
  | nil =>
    rw [boundedDigits, Except.ok.injEq]
    exact ⟨fun heq => ⟨List.forall_mem_nil _, heq, heq ▸ h⟩, fun ⟨_, heq, _⟩ => heq⟩
  | cons c cs ih =>
    rw [boundedDigits, List.forall_mem_cons, Nat.ofDigitChars_cons]
    have hvalue : digitValue c = c.toNat - '0'.toNat := rfl
    rw [← hvalue]
    split
    next hc =>
      refine ⟨nofun, fun ⟨hdigits, _⟩ => ?_⟩
      simp [hdigits.1] at hc
    next hc =>
      have hc : c.isDigit = true := by simpa using hc
      split
      next hlarge =>
        -- the digits behind can only make it larger
        refine ⟨nofun, fun ⟨_, hn, hfits⟩ => ?_⟩
        have hgrows := le_ofDigitChars cs (10 * soFar + digitValue c)
        omega
      next hfits =>
        rw [ih (Nat.le_of_not_lt hfits)]
        exact ⟨fun ⟨hcs, hn⟩ => ⟨⟨hc, hcs⟩, hn⟩, fun ⟨⟨_, hcs⟩, hn⟩ => ⟨hcs, hn⟩⟩

/-- A natural number is digits, with a plus sign in front or without one. -/
theorem readNat_eq_ok_iff {bound n : Nat} {cs : List Char} :
    readNat bound cs = .ok n ↔
      ∃ digits, (cs = digits ∨ cs = '+' :: digits) ∧ digits ≠ [] ∧
        (∀ c ∈ digits, c.isDigit = true) ∧ Nat.ofDigitChars 10 digits 0 = n ∧ n ≤ bound := by
  have hplus : ∀ {more}, ¬ ∀ c ∈ '+' :: more, c.isDigit = true := fun h =>
    absurd (h '+' List.mem_cons_self) (by decide)
  unfold readNat
  split
  next =>
    refine ⟨nofun, ?_⟩
    rintro ⟨digits, rfl | hcs, hne, -⟩
    · exact absurd rfl hne
    · cases hcs
  next =>
    refine ⟨nofun, ?_⟩
    rintro ⟨digits, rfl | hcs, hne, hdigits, -⟩
    · exact absurd hdigits hplus
    · cases hcs
      exact absurd rfl hne
  next digits hne =>
    rw [boundedDigits_eq_ok_iff (Nat.zero_le _)]
    refine ⟨fun h => ⟨digits, .inr rfl, fun hnil => hne (by rw [hnil]), h⟩, ?_⟩
    rintro ⟨digits', rfl | hcs, -, hdigits, h⟩
    · exact absurd hdigits hplus
    · cases hcs
      exact ⟨hdigits, h⟩
  next digits hnil _ hsign =>
    rw [boundedDigits_eq_ok_iff (Nat.zero_le _)]
    refine ⟨fun h => ⟨cs, .inl rfl, hnil, h⟩, ?_⟩
    rintro ⟨digits', rfl | hcs, -, h⟩
    · exact h
    · exact absurd hcs (hsign _)

theorem wholeNumber_minus_iff {digits : List Char} {i : Int} :
    WholeNumber ('-' :: digits) i ↔
      digits ≠ [] ∧ (∀ c ∈ digits, c.isDigit = true) ∧
        -(Nat.ofDigitChars 10 digits 0 : Int) = i := by
  refine ⟨fun h => ?_, fun ⟨hne, hdigits, hi⟩ => hi ▸ .minus hne hdigits⟩
  cases h with
  | plain _ hdigits => exact absurd (hdigits '-' List.mem_cons_self) (by decide)
  | minus hne hdigits => exact ⟨hne, hdigits, rfl⟩

theorem wholeNumber_iff_of_no_minus {cs : List Char} {i : Int} (h : ∀ digits, cs ≠ '-' :: digits) :
    WholeNumber cs i ↔
      ∃ digits, (cs = digits ∨ cs = '+' :: digits) ∧ digits ≠ [] ∧
        (∀ c ∈ digits, c.isDigit = true) ∧ (Nat.ofDigitChars 10 digits 0 : Int) = i := by
  constructor
  · intro hwhole
    cases hwhole with
    | plain hne hdigits => exact ⟨_, .inl rfl, hne, hdigits, rfl⟩
    | plus hne hdigits => exact ⟨_, .inr rfl, hne, hdigits, rfl⟩
    | minus => exact absurd rfl (h _)
  · rintro ⟨digits, rfl | rfl, hne, hdigits, rfl⟩
    · exact .plain hne hdigits
    · exact .plus hne hdigits

/-- A natural number is a whole number without a minus sign. -/
theorem readNat_eq_ok_iff_whole {bound n : Nat} {cs : List Char} :
    readNat bound cs = .ok n ↔
      WholeNumber cs n ∧ n ≤ bound ∧ ∀ digits, cs ≠ '-' :: digits := by
  rw [readNat_eq_ok_iff]
  constructor
  · rintro ⟨digits, hcs, hne, hdigits, hn, hfits⟩
    have hsign : ∀ more, cs ≠ '-' :: more := by
      rintro more rfl
      rcases hcs with rfl | hcs
      · exact absurd (hdigits '-' List.mem_cons_self) (by decide)
      · cases hcs
    exact ⟨(wholeNumber_iff_of_no_minus hsign).mpr
      ⟨digits, hcs, hne, hdigits, congrArg Nat.cast hn⟩, hfits, hsign⟩
  · rintro ⟨whole, hfits, hsign⟩
    obtain ⟨digits, hcs, hne, hdigits, hn⟩ := (wholeNumber_iff_of_no_minus hsign).mp whole
    exact ⟨digits, hcs, hne, hdigits, Int.ofNat.inj hn, hfits⟩

/-- **An integer is read when it is typed as one within the range**, and as that integer. -/
theorem readInt_eq_ok_iff {bits : Nat} {cs : List Char} {i : Int} :
    readInt bits cs = .ok i ↔
      WholeNumber cs i ∧ -(2 ^ (bits - 1) : Int) ≤ i ∧ i ≤ 2 ^ (bits - 1) - 1 := by
  have hbound : ((Nat.pow 2 (bits - 1) : Nat) : Int) = 2 ^ (bits - 1) := Int.natCast_pow 2 _
  have hpos : 0 < Nat.pow 2 (bits - 1) := Nat.two_pow_pos _
  rw [← hbound]
  unfold readInt
  split
  next =>
    refine ⟨nofun, fun ⟨hwhole, _⟩ => ?_⟩
    exact absurd rfl (wholeNumber_minus_iff.mp hwhole).1
  next digits hne =>
    rw [wholeNumber_minus_iff]
    have hread : ∀ n, boundedDigits (Nat.pow 2 (bits - 1)) 0 digits = .ok n ↔ _ := fun n =>
      boundedDigits_eq_ok_iff (Nat.zero_le _)
    constructor
    · intro h
      split at h
      next n hn =>
        obtain ⟨hdigits, hvalue, hfits⟩ := (hread n).mp hn
        cases h
        exact ⟨⟨fun hnil => hne (by rw [hnil]), hdigits, by rw [hvalue]⟩, by omega, by omega⟩
      next => cases h
      next => cases h
    · rintro ⟨⟨-, hdigits, rfl⟩, hlow, -⟩
      rw [(hread _).mpr ⟨hdigits, rfl, by omega⟩]
  next _ hminus =>
    rw [wholeNumber_iff_of_no_minus hminus]
    constructor
    · intro h
      cases hread : readNat (Nat.pow 2 (bits - 1) - 1) cs with
      | error e => rw [hread] at h; cases h
      | ok n =>
        rw [hread] at h
        obtain rfl : (n : Int) = i := Except.ok.inj h
        obtain ⟨digits, hcs, hne, hdigits, hvalue, hfits⟩ := readNat_eq_ok_iff.mp hread
        exact ⟨⟨digits, hcs, hne, hdigits, congrArg Nat.cast hvalue⟩, by omega, by omega⟩
    · rintro ⟨⟨digits, hcs, hne, hdigits, rfl⟩, -, hhigh⟩
      rw [readNat_eq_ok_iff.mpr ⟨digits, hcs, hne, hdigits, rfl, by omega⟩]
      rfl

end CavityConsole.Text

import CavityConsole.Proofs.Binary.Rounds
import CavityConsole.Proofs.Json.Recognition

/-!
# Decimals as they are typed

A typed decimal has at most one sign, digits with at most one point among them, and perhaps an
exponent (`Typed`). There is a digit on one side of the point, and a digit in an exponent.

**The law** (`read_finite_iff`): a text is read as a finite value exactly when it is such a decimal
and the value is what its exact number is rounded to, with the sign that is typed. So a word for
infinity or for what is no number is read as nothing finite, and neither is a decimal that is too
large for the format.
-/

namespace CavityConsole.Decimal

open Binary Json

/-- A decimal number as it is typed. -/
structure Typed where
  /-- A sign, or nothing. -/
  sign : List Char
  /-- The digits in front of the point. -/
  whole : List Char
  /-- The digits behind the point, if there is one. -/
  fraction : Option (List Char)
  /-- The exponent, if there is one. -/
  exponent : Option Exponent

namespace Typed

/-- What stands behind the whole digits. -/
def tail (t : Typed) : List Char :=
  (t.fraction.map ('.' :: ·)).getD [] ++ (t.exponent.map Exponent.text).getD []

/-- The text of a decimal. -/
def text (t : Typed) : List Char := t.sign ++ (t.whole ++ t.tail)

/-- A decimal has at most one sign, and a digit wherever one is due. -/
structure WellFormed (t : Typed) : Prop where
  sign : t.sign = [] ∨ t.sign = ['+'] ∨ t.sign = ['-']
  whole : ∀ c ∈ t.whole, c.isDigit = true
  fraction : ∀ c ∈ t.fraction.getD [], c.isDigit = true
  digit : t.whole ≠ [] ∨ t.fraction.getD [] ≠ []
  exponent : ∀ e ∈ t.exponent, e.WellFormed

/-- All digits of a decimal, as one number. -/
def significand (t : Typed) : Nat := Nat.ofDigitChars 10 (t.whole ++ t.fraction.getD []) 0

/-- The power of ten that belongs to them. -/
def power (t : Typed) : Int := (t.exponent.map Exponent.shift).getD 0 - (t.fraction.getD []).length

/-- The number that a decimal stands for, without its sign. -/
def value (t : Typed) : ℚ := t.significand * 10 ^ t.power

end Typed

/-! ## Exponents -/

theorem takeSign_append {sign tail : List Char} (hsign : sign = [] ∨ sign = ['+'] ∨ sign = ['-'])
    (htail : ∀ c ∈ tail.head?, c ≠ '-' ∧ c ≠ '+') :
    takeSign (sign ++ tail) = (decide (sign = ['-']), tail) := by
  rcases hsign with rfl | rfl | rfl
  · unfold takeSign
    split
    next rest heq =>
      rw [List.nil_append] at heq
      exact absurd rfl (htail '-' (by rw [heq]; rfl)).1
    next rest heq =>
      rw [List.nil_append] at heq
      exact absurd rfl (htail '+' (by rw [heq]; rfl)).2
    next => rfl
  · rfl
  · rfl

theorem ne_signs_of_isDigit {c : Char} (h : c.isDigit = true) : c ≠ '-' ∧ c ≠ '+' := by
  constructor <;> rintro rfl <;> cases h

/-- **An exponent is read** when it is one, or when there is none. -/
theorem readExponent_eq_some_iff {cs : List Char} {shift : Int} :
    readExponent cs = some shift ↔
      ∃ exponent : Option Exponent, (∀ e ∈ exponent, e.WellFormed) ∧
        cs = (exponent.map Exponent.text).getD [] ∧
        shift = (exponent.map Exponent.shift).getD 0 := by
  constructor
  · intro h
    cases cs with
    | nil =>
      cases h
      exact ⟨none, nofun, rfl, rfl⟩
    | cons mark rest =>
      obtain ⟨sign, tail, rfl, hsign, htake⟩ := exists_takeSign rest
      unfold readExponent at h
      dsimp only at h
      rw [htake] at h
      dsimp only at h
      split at h
      next hmark =>
        split at h
        next => cases h
        next hdigits =>
          cases h
          simp only [List.isEmpty_iff, Bool.not_eq_eq_eq_not, Bool.not_true, not_or,
            Bool.not_eq_false, List.all_eq_true] at hdigits
          refine ⟨some ⟨mark, sign, tail⟩, ?_, rfl, ?_⟩
          · rintro _ ⟨⟩
            exact ⟨by simpa [isExponentMark] using hmark, hsign, hdigits.2, hdigits.1⟩
          · simp [Exponent.shift]
      next => cases h
  · rintro ⟨exponent, hform, rfl, rfl⟩
    cases exponent with
    | none => rfl
    | some e =>
      obtain ⟨hmark, hsign, hdigits, hne⟩ := hform e rfl
      have htake : takeSign (e.sign ++ e.digits) = (decide (e.sign = ['-']), e.digits) :=
        takeSign_append hsign fun c hc =>
          ne_signs_of_isDigit (hdigits c (List.mem_of_mem_head? hc))
      have hmark : e.mark = 'e' ∨ e.mark = 'E' := by simpa [isExponentMark] using hmark
      show readExponent (e.mark :: (e.sign ++ e.digits)) = some e.shift
      unfold readExponent
      dsimp only
      rw [if_pos hmark, htake]
      dsimp only
      rw [if_neg (by simpa using ⟨hne, hdigits⟩)]
      simp [Exponent.shift]

/-! ## Digits with a point -/

theorem mark_ne {e : Exponent} (h : e.WellFormed) : e.mark.isDigit = false ∧ e.mark ≠ '.' := by
  have hmark : e.mark = 'e' ∨ e.mark = 'E' := by simpa [isExponentMark] using h.mark
  rcases hmark with hmark | hmark <;> rw [hmark] <;> decide

/-- An exponent starts with neither a digit nor a point. -/
theorem starts_exponent {exponent : Option Exponent} (h : ∀ e ∈ exponent, e.WellFormed) :
    NoDigit ((exponent.map Exponent.text).getD []) ∧
      ∀ tail, (exponent.map Exponent.text).getD [] ≠ '.' :: tail := by
  cases exponent with
  | none => exact ⟨fun _ => nofun, fun _ => nofun⟩
  | some e =>
    obtain ⟨hdigit, hpoint⟩ := mark_ne (h e rfl)
    exact ⟨noDigit_cons _ hdigit, fun tail heq => hpoint (List.cons.inj heq).1⟩

/-- **A decimal is read** as the number of all its digits and its power of ten. -/
theorem readUnsigned_of_wellFormed {t : Typed} (h : t.WellFormed) :
    readUnsigned (t.whole ++ t.tail) = some (t.significand, t.power) := by
  obtain ⟨sign, whole, fraction, exponent⟩ := t
  obtain ⟨-, hwhole, hfraction, hdigit, hexponent⟩ := h
  obtain ⟨hnoDigit, hnoPoint⟩ := starts_exponent hexponent
  have hread := readExponent_eq_some_iff.mpr ⟨exponent, hexponent, rfl, rfl⟩
  unfold readUnsigned Typed.tail Typed.significand Typed.power
  dsimp only at *
  cases fraction with
  | none =>
    obtain ⟨htake, hdrop⟩ := span_digits hwhole hnoDigit
    have hne : whole ≠ [] := hdigit.resolve_right fun hnil => hnil rfl
    simp only [Option.map_none, Option.getD_none, List.nil_append, htake, hdrop]
    rw [if_neg fun hnone => hne (List.isEmpty_iff.mp hnone.1), hread]
    rfl
  | some digits =>
    have hpoint : '.'.isDigit = false := by decide
    obtain ⟨htake, hdrop⟩ := span_digits hwhole
      (noDigit_cons (digits ++ (exponent.map Exponent.text).getD []) hpoint)
    obtain ⟨htake', hdrop'⟩ := span_digits hfraction hnoDigit
    have hne : ¬ (whole = [] ∧ digits = []) := fun hnil => hdigit.elim (· hnil.1) (· hnil.2)
    simp only [Option.map_some, Option.getD_some, List.cons_append] at htake' hdrop' ⊢
    simp only [htake, hdrop, htake', hdrop', List.isEmpty_iff, if_neg hne, hread, Option.map_some]

theorem exists_exponent {whole digits rest : List Char} {significand : Nat} {power : Int}
    (h : (if whole.isEmpty = true ∧ digits.isEmpty = true then none
      else (readExponent rest).map fun shift =>
        (Nat.ofDigitChars 10 (whole ++ digits) 0, shift - (digits.length : Int))) =
          some (significand, power)) :
    (whole ≠ [] ∨ digits ≠ []) ∧
      ∃ exponent : Option Exponent, (∀ e ∈ exponent, e.WellFormed) ∧
        rest = (exponent.map Exponent.text).getD [] ∧
        Nat.ofDigitChars 10 (whole ++ digits) 0 = significand ∧
        (exponent.map Exponent.shift).getD 0 - digits.length = power := by
  split at h
  next => cases h
  next hdigit =>
    obtain ⟨shift, hshift, hpair⟩ := Option.map_eq_some_iff.mp h
    obtain ⟨exponent, hexponent, hrest, rfl⟩ := readExponent_eq_some_iff.mp hshift
    obtain ⟨rfl, rfl⟩ := Prod.mk.inj hpair
    rw [List.isEmpty_iff, List.isEmpty_iff, not_and_or] at hdigit
    exact ⟨hdigit, exponent, hexponent, hrest, rfl, rfl⟩

/-- What is read without a sign is a decimal. -/
theorem exists_typed {cs : List Char} {significand : Nat} {power : Int}
    (h : readUnsigned cs = some (significand, power)) {sign : List Char}
    (hsign : sign = [] ∨ sign = ['+'] ∨ sign = ['-']) :
    ∃ t : Typed, t.WellFormed ∧ t.sign = sign ∧ cs = t.whole ++ t.tail ∧
      t.significand = significand ∧ t.power = power := by
  have hcs := (List.takeWhile_append_dropWhile (p := Char.isDigit) (l := cs)).symm
  have hwhole := takeWhile_digits cs
  unfold readUnsigned at h
  generalize cs.takeWhile Char.isDigit = whole at *
  generalize cs.dropWhile Char.isDigit = rest at *
  split at h
  next digits rest' hpoint =>
    obtain ⟨hdigit, exponent, hexponent, hrest, hsignificand, hpower⟩ := exists_exponent h
    split at hpoint
    next tail =>
      cases hpoint
      refine ⟨⟨sign, whole, some (tail.takeWhile Char.isDigit), exponent⟩,
        ⟨hsign, hwhole, takeWhile_digits tail, hdigit, hexponent⟩, rfl, ?_, hsignificand, hpower⟩
      rw [hcs]
      show _ = whole ++ ('.' :: tail.takeWhile Char.isDigit ++ _)
      rw [← hrest, List.cons_append, List.takeWhile_append_dropWhile]
    next =>
      cases hpoint
      refine ⟨⟨sign, whole, none, exponent⟩,
        ⟨hsign, hwhole, List.forall_mem_nil _, hdigit, hexponent⟩, rfl, ?_, hsignificand, hpower⟩
      rw [hcs, hrest]
      rfl

/-! ## Values -/

variable {f : Format}

theorem negative_ofDecimal (negative : Bool) (significand : Nat) (exponent : Int) :
    (ofDecimal negative significand exponent : Binary f).negative = negative := by
  unfold ofDecimal
  dsimp only
  split
  · rfl
  · split
    · rfl
    · split <;> rfl

/-- A text is typed for a value: the value is finite, and the number of the text is rounded to
it. -/
structure TypedAs (text : List Char) (x : Binary f) (t : Typed) : Prop where
  wellFormed : t.WellFormed
  text : text = t.text
  negative : x.negative = decide (t.sign = ['-'])
  rounds : f.Rounds t.value x.code
  finite : x.isFinite = true

theorem starts_typed {t : Typed} (h : t.WellFormed) :
    ∀ c ∈ (t.whole ++ t.tail).head?, c ≠ '-' ∧ c ≠ '+' := by
  obtain ⟨sign, whole, fraction, exponent⟩ := t
  obtain ⟨-, hwhole, -, hdigit, -⟩ := h
  dsimp only at *
  intro c hc
  cases whole with
  | cons first others =>
    cases hc
    exact ne_signs_of_isDigit (hwhole c List.mem_cons_self)
  | nil =>
    -- without a digit in front there is a point
    cases fraction with
    | none => exact absurd rfl (hdigit.resolve_left fun h => h rfl)
    | some digits =>
      cases hc
      decide

theorem takeSign_text {t : Typed} (h : t.WellFormed) :
    takeSign t.text = (decide (t.sign = ['-']), t.whole ++ t.tail) :=
  takeSign_append h.sign (starts_typed h)

/-- A word is read as nothing finite. -/
theorem exists_readUnsigned {text : List Char} {x : Binary f} (h : read f text = some x)
    (hfinite : x.isFinite = true) :
    ∃ significand power, readUnsigned (takeSign text).2 = some (significand, power) ∧
      x = ofDecimal (takeSign text).1 significand power := by
  unfold read at h
  dsimp only at h
  split at h
  next significand power hread => exact ⟨significand, power, hread, (Option.some.inj h).symm⟩
  next =>
    split at h
    · cases h
      exact absurd hfinite (by simp [isFinite, infinite])
    · split at h
      · cases h
        have hlarge : f.infinity ≤ f.notANumber := Nat.le_add_right _ _
        exact absurd (of_decide_eq_true hfinite) (Nat.not_lt_of_le hlarge)
      · cases h

/-- **Which texts are read as a finite value.** -/
theorem read_finite_iff {text : List Char} {x : Binary f} :
    (read f text = some x ∧ x.isFinite = true) ↔ ∃ t, TypedAs text x t := by
  constructor
  · rintro ⟨h, hfinite⟩
    obtain ⟨significand, power, hread, hx⟩ := exists_readUnsigned h hfinite
    obtain ⟨sign, tail, rfl, hsign, htake⟩ := exists_takeSign text
    rw [htake] at hread hx
    obtain ⟨t, hform, rfl, rfl, rfl, rfl⟩ := exists_typed hread hsign
    refine ⟨t, hform, rfl, ?_, ?_, hfinite⟩
    · rw [hx, negative_ofDecimal]
    · rw [hx]
      exact rounds_ofDecimal _ _ _
  · rintro ⟨t, hform, rfl, hsign, hrounds, hfinite⟩
    refine ⟨?_, hfinite⟩
    have hcode := (rounds_ofDecimal x.negative t.significand t.power).unique hrounds
    unfold read
    rw [takeSign_text hform]
    dsimp only
    rw [readUnsigned_of_wellFormed hform, ← hsign]
    exact congrArg some (eq_of_parts hcode (negative_ofDecimal _ _ _))

end CavityConsole.Decimal

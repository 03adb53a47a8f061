import CavityConsole.Decimal.Layout
import CavityConsole.Json.Token
import CavityConsole.Proofs.Binary.Magnitude
import CavityConsole.Proofs.Decimal.Scientific
import CavityConsole.Proofs.Text.Digits

/-!
# Numbers that are written are read

A number that is written is followed by something that cannot go on it (`Apart`), so the reader
takes its characters and no others. Integers are read as they are (`numberBody_digitText`). A
decimal is read as a significand and a power of ten in whatever layout it is written
(`unsigned_decimalText`).

**What is not established here.** Which value a significand and a power of ten are rounded to, and
whether that is the value that was written.
-/

namespace CavityConsole.Json

/-! ## Texts without control characters -/

/-- There are no control characters in a text. -/
def Plain (text : List Char) : Prop := ∀ c ∈ text, 0x20 ≤ c.toNat

theorem plain_nil : Plain [] := List.forall_mem_nil _

theorem Plain.cons {c : Char} {text : List Char} (hc : 0x20 ≤ c.toNat) (h : Plain text) :
    Plain (c :: text) :=
  List.forall_mem_cons.mpr ⟨hc, h⟩

theorem Plain.append {front rest : List Char} (hfront : Plain front) (hrest : Plain rest) :
    Plain (front ++ rest) :=
  List.forall_mem_append.mpr ⟨hfront, hrest⟩

/-- A text can be looked through. -/
theorem plain_of_all {text : List Char} (h : (text.all fun c => decide (0x20 ≤ c.toNat)) = true) :
    Plain text :=
  fun c hc => of_decide_eq_true (List.all_eq_true.mp h c hc)

theorem plain_digits {text : List Char} (h : ∀ c ∈ text, c.isDigit = true) : Plain text := by
  intro c hc
  have hdigit := h c hc
  simp only [Char.isDigit, Bool.and_eq_true, decide_eq_true_eq] at hdigit
  have hlow : '0'.toNat ≤ c.toNat := hdigit.1
  exact Nat.le_trans (by decide) hlow

/-! ## What may follow a number -/

/-- The text cannot go on a number. -/
def Apart (rest : List Char) : Prop :=
  ∀ c ∈ rest.head?, c.isDigit = false ∧ c ≠ '.' ∧ isExponentMark c = false

theorem Apart.noDigit {rest : List Char} (h : Apart rest) : NoDigit rest :=
  fun c hc => (h c hc).1

theorem apart_nil : Apart [] := by
  intro c hc
  cases hc

theorem apart_cons {c : Char} (rest : List Char)
    (h : c.isDigit = false ∧ c ≠ '.' ∧ isExponentMark c = false) : Apart (c :: rest) := by
  intro d hd
  cases hd
  exact h

theorem noDigit_mark {mark : Char} (rest : List Char) (h : isExponentMark mark = true) :
    NoDigit (mark :: rest) := by
  rw [isExponentMark, Bool.or_eq_true, beq_iff_eq, beq_iff_eq] at h
  rcases h with rfl | rfl
  · exact noDigit_cons rest rfl
  · exact noDigit_cons rest rfl

/-! ## Significands -/

/-- The significand stays below its bound. -/
theorem gather_lt {significand : Nat} (digits : List Char) (h : significand < significandBound) :
    (gather significand digits).1 < significandBound := by
  induction digits generalizing significand with
  | nil => exact h
  | cons c digits ih =>
    rw [gather]
    split
    next hnext => exact ih hnext
    next => exact h

/-- No more digits than there are find no place. -/
theorem gather_le (significand : Nat) (digits : List Char) :
    (gather significand digits).2 ≤ digits.length := by
  induction digits generalizing significand with
  | nil => exact Nat.le_refl 0
  | cons c digits ih =>
    rw [gather]
    split
    next => exact (ih _).trans (Nat.le_succ _)
    next => exact Nat.le_refl _

/-- Below the bound every digit finds its place. -/
theorem gather_eq {digits : List Char} {significand : Nat}
    (h : Nat.ofDigitChars 10 digits significand < significandBound) :
    gather significand digits = (Nat.ofDigitChars 10 digits significand, 0) := by
  induction digits generalizing significand with
  | nil => rfl
  | cons c digits ih =>
    rw [Nat.ofDigitChars_cons] at h ⊢
    have hnext := Nat.lt_of_le_of_lt (le_ofDigitChars digits _) h
    rw [gather]
    exact (if_pos hnext).trans (ih h)

/-! ## Whole digits -/

/-- Digits as they may stand in front of a number: a zero stands there only alone. -/
structure WholeDigits (cs : List Char) : Prop where
  ne_nil : cs ≠ []
  digits : ∀ c ∈ cs, c.isDigit = true
  /-- A zero stands alone. -/
  zero : cs.head? = some '0' → cs = ['0']

theorem digitText_ne_nil (n : Nat) : Decimal.digitText n ≠ [] := Nat.toDigits_ne_nil

/-- A positive number does not start with a zero. -/
theorem head?_digitText {n : Nat} (h : 0 < n) : (Decimal.digitText n).head? ≠ some '0' := by
  induction n using Nat.strongRecOn with
  | ind n ih =>
    unfold Decimal.digitText at ih ⊢
    rcases Nat.lt_or_ge n 10 with hsmall | hlarge
    · rw [Nat.toDigits_of_lt_base hsmall, List.head?_cons]
      simp only [ne_eq, Option.some.injEq, Nat.digitChar_eq_zero]
      omega
    · rw [Nat.toDigits_of_base_le (by decide) hlarge,
        List.head?_append_of_ne_nil _ Nat.toDigits_ne_nil]
      exact ih (n / 10) (by omega) (by omega)

theorem wholeDigits_zero : WholeDigits ['0'] :=
  ⟨by simp, by simp, fun _ => rfl⟩

theorem wholeDigits_digitText (n : Nat) : WholeDigits (Decimal.digitText n) := by
  refine ⟨digitText_ne_nil n, fun c hc => isDigit_of_mem_digitText hc, fun hzero => ?_⟩
  rcases Nat.eq_zero_or_pos n with rfl | hpos
  · rfl
  · exact absurd hzero (head?_digitText hpos)

/-- Whole digits are gathered up to what follows them. -/
theorem numberBody_whole {whole rest : List Char} (hwhole : WholeDigits whole)
    (hrest : NoDigit rest) (negative : Bool) :
    numberBody negative (whole ++ rest) =
      numberTail negative (gather 0 whole).1 (gather 0 whole).2 rest := by
  obtain ⟨hne, hdigits, hzero⟩ := hwhole
  obtain ⟨htake, hdrop⟩ := span_digits hdigits hrest
  cases whole with
  | nil => exact absurd rfl hne
  | cons c more =>
    have hc : c.isDigit = true := hdigits c List.mem_cons_self
    rw [List.cons_append] at htake hdrop ⊢
    by_cases h : c = '0'
    · obtain rfl : more = [] := (List.cons_eq_cons.mp (hzero (congrArg some h))).2
      subst h
      have hnext : (rest.head?.map Char.isDigit).getD false = false := by
        cases hhead : rest.head? with
        | none => rfl
        | some d => exact hrest d hhead
      rw [numberBody, List.nil_append]
      simp only [if_true, hnext, Bool.false_eq_true, if_false]
      rfl
    · rw [numberBody]
      simp only [if_neg h, if_pos hc, htake, hdrop]

/-! ## Integers -/

/-- A natural number of 64 bits is read as itself, negative ones down to the least of 64 bits with a
sign. -/
theorem numberBody_digitText {n : Nat} {rest : List Char} (hrest : Apart rest) :
    (n < significandBound →
      numberBody false (Decimal.digitText n ++ rest) = .ok (.integer n, rest)) ∧
    (0 < n → n ≤ UInt64.size / 2 →
      numberBody true (Decimal.digitText n ++ rest) = .ok (.integer (-(n : Int)), rest)) := by
  have hvalue : Nat.ofDigitChars 10 (Decimal.digitText n) 0 = n :=
    Nat.ofDigitChars_toDigits (by decide) (by decide)
  have htail : ∀ {negative number}, wholeNumber negative n 0 = .ok number →
      n < significandBound →
        numberBody negative (Decimal.digitText n ++ rest) = .ok (number, rest) := by
    intro negative number hnumber hn
    rw [numberBody_whole (wholeDigits_digitText n) hrest.noDigit,
      gather_eq (by rw [hvalue]; exact hn), hvalue]
    cases rest with
    | nil => rw [numberTail, hnumber]; rfl
    | cons c rest =>
      obtain ⟨-, hpoint, hmark⟩ := hrest c rfl
      rw [numberTail, if_neg hpoint, if_neg (by simp [hmark]), hnumber]
      rfl
  refine ⟨fun hn => htail rfl hn, fun hpos hn => htail ?_ ?_⟩
  · rw [wholeNumber, if_neg (Nat.lt_irrefl 0)]
    simp only [Bool.not_true, Bool.false_eq_true, if_false, if_pos (And.intro hpos hn)]
  · exact Nat.lt_of_le_of_lt hn (by decide)

/-! ## Fractions and exponents -/

/-- The exponent of digits behind a point, of which some found no place. -/
def fractionExponent (dropped : Nat) (significand : Nat) (fraction : List Char) : Int :=
  dropped - (fraction.length - (gather significand fraction).2 : Nat)

theorem fractionExponent_le (dropped significand : Nat) (fraction : List Char) :
    fractionExponent dropped significand fraction ≤ dropped := by
  unfold fractionExponent
  omega

section

variable {negative : Bool} {significand dropped : Nat} {fraction rest : List Char}
  (hne : fraction ≠ []) (hdigits : ∀ c ∈ fraction, c.isDigit = true)
include hne hdigits

/-- A fraction at the end of its number. -/
theorem fractionPart_ends (hrest : Apart rest) :
    fractionPart negative significand dropped (fraction ++ rest) =
      (real negative (gather significand fraction).1
        (fractionExponent dropped significand fraction)).map fun n => (n, rest) := by
  obtain ⟨htake, hdrop⟩ := span_digits hdigits hrest.noDigit
  cases fraction with
  | nil => exact absurd rfl hne
  | cons c more =>
    have hc : c.isDigit = true := hdigits c List.mem_cons_self
    rw [List.cons_append] at htake hdrop ⊢
    rw [fractionPart]
    simp only [if_pos hc, htake, hdrop]
    cases rest with
    | nil => rfl
    | cons e rest =>
      obtain ⟨-, -, hmark⟩ := hrest e rfl
      simp only [hmark, Bool.false_eq_true, if_false]
      rfl

/-- A fraction in front of an exponent. -/
theorem fractionPart_exponent {mark : Char} (hmark : isExponentMark mark = true) :
    fractionPart negative significand dropped (fraction ++ mark :: rest) =
      exponentPart negative (gather significand fraction).1
        (fractionExponent dropped significand fraction) rest := by
  obtain ⟨htake, hdrop⟩ := span_digits hdigits (noDigit_mark rest hmark)
  cases fraction with
  | nil => exact absurd rfl hne
  | cons c more =>
    have hc : c.isDigit = true := hdigits c List.mem_cons_self
    rw [List.cons_append] at htake hdrop ⊢
    rw [fractionPart]
    simp only [if_pos hc, htake, hdrop, hmark]
    rfl

end

/-- An exponent as it is written. -/
structure Exponent where
  /-- An `e` of either case. -/
  mark : Char
  /-- A sign, or nothing. -/
  sign : List Char
  /-- Its digits. -/
  digits : List Char

namespace Exponent

/-- The text of an exponent. -/
def text (e : Exponent) : List Char := e.mark :: (e.sign ++ e.digits)

/-- An exponent has its mark, at most one sign, and a digit. -/
structure WellFormed (e : Exponent) : Prop where
  mark : isExponentMark e.mark = true
  sign : e.sign = [] ∨ e.sign = ['+'] ∨ e.sign = ['-']
  digits : ∀ c ∈ e.digits, c.isDigit = true
  ne_nil : e.digits ≠ []

/-- The number that an exponent stands for. -/
def shift (e : Exponent) : Int :=
  if e.sign = ['-'] then -(Nat.ofDigitChars 10 e.digits 0 : Int)
  else Nat.ofDigitChars 10 e.digits 0

end Exponent

/-- An exponent is taken in front of anything but a digit. -/
theorem exponentPart_text {e : Exponent} (he : e.WellFormed) (negative : Bool) (significand : Nat)
    (start : Int) {rest : List Char} (hrest : NoDigit rest) :
    exponentPart negative significand start (e.sign ++ (e.digits ++ rest)) =
      (real negative significand (start + e.shift)).map fun n => (n, rest) := by
  obtain ⟨mark, sign, digits⟩ := e
  obtain ⟨-, hsign, hdigits, hne⟩ := he
  dsimp only at *
  obtain ⟨htake, hdrop⟩ := span_digits hdigits hrest
  obtain ⟨c, more, rfl⟩ := List.exists_cons_of_ne_nil hne
  have hc : c.isDigit = true := hdigits c List.mem_cons_self
  have hsigned : Decimal.takeSign (sign ++ (c :: more ++ rest)) =
      (decide (sign = ['-']), c :: (more ++ rest)) := by
    rcases hsign with rfl | rfl | rfl
    · exact takeSign_of_digit hc _
    · rfl
    · rfl
  rw [List.cons_append] at htake hdrop
  unfold exponentPart Exponent.shift
  rw [hsigned]
  simp [hc, htake, hdrop]

/-- An exponent as it stands behind its mark: the sign is always written. -/
def signedText (shift : Int) : List Char :=
  (if shift < 0 then [] else ['+']) ++ Decimal.integerText shift

/-- The exponent that is written for a number. -/
def Exponent.ofInt (shift : Int) : Exponent where
  mark := 'e'
  sign := if shift < 0 then ['-'] else ['+']
  digits := Decimal.digitText shift.natAbs

theorem Exponent.wellFormed_ofInt (shift : Int) : (Exponent.ofInt shift).WellFormed where
  mark := rfl
  sign := by
    unfold Exponent.ofInt
    dsimp only
    split
    · exact .inr (.inr rfl)
    · exact .inr (.inl rfl)
  digits := fun _ => isDigit_of_mem_digitText
  ne_nil := digitText_ne_nil _

theorem Exponent.shift_ofInt (shift : Int) : (Exponent.ofInt shift).shift = shift := by
  have hvalue : Nat.ofDigitChars 10 (Decimal.digitText shift.natAbs) 0 = shift.natAbs :=
    Nat.ofDigitChars_toDigits (by decide) (by decide)
  unfold Exponent.shift Exponent.ofInt
  dsimp only
  rw [hvalue]
  by_cases h : shift < 0
  · rw [if_pos h, if_pos rfl]
    omega
  · rw [if_neg h, if_neg (by decide)]
    omega

theorem signedText_eq (shift : Int) (rest : List Char) :
    signedText shift ++ rest =
      (Exponent.ofInt shift).sign ++ ((Exponent.ofInt shift).digits ++ rest) := by
  unfold signedText Decimal.integerText Exponent.ofInt
  split <;> rfl

/-- A written exponent is added. -/
theorem exponentPart_signedText (negative : Bool) (significand : Nat) (start shift : Int)
    {rest : List Char} (hrest : Apart rest) :
    exponentPart negative significand start (signedText shift ++ rest) =
      (real negative significand (start + shift)).map fun n => (n, rest) := by
  rw [signedText_eq, exponentPart_text (Exponent.wellFormed_ofInt shift) _ _ _ hrest.noDigit,
    Exponent.shift_ofInt]

/-! ## Decimals -/

/-- A text that is read as a real number, behind a sign or without one: its power of ten is at most
`bound`. -/
structure Unsigned (bound : Int) (text : List Char) : Prop where
  starts : ∃ c more, text = c :: more ∧ c.isDigit = true
  plain : Plain text
  /-- It is read up to what cannot go on it. -/
  reads : ∃ significand exponent, significand < significandBound ∧ exponent ≤ bound ∧
    ∀ negative rest, Apart rest →
      numberBody negative (text ++ rest) =
        (real negative significand exponent).map fun n => (n, rest)

theorem Unsigned.mono {low high : Int} {text : List Char} (h : Unsigned low text)
    (hle : low ≤ high) : Unsigned high text := by
  obtain ⟨starts, plain, significand, exponent, hs, hx, hreads⟩ := h
  exact ⟨starts, plain, significand, exponent, hs, hx.trans hle, hreads⟩

theorem WholeDigits.starts {whole : List Char} (h : WholeDigits whole) (rest : List Char) :
    ∃ c more, whole ++ rest = c :: more ∧ c.isDigit = true := by
  obtain ⟨c, more, rfl⟩ := List.exists_cons_of_ne_nil h.ne_nil
  exact ⟨c, more ++ rest, rfl, h.digits c List.mem_cons_self⟩

theorem gather_fresh_lt (digits : List Char) : (gather 0 digits).1 < significandBound :=
  gather_lt digits (by decide)

/-- Digits on both sides of a point. -/
theorem unsigned_point {whole fraction : List Char} (hwhole : WholeDigits whole)
    (hne : fraction ≠ []) (hdigits : ∀ c ∈ fraction, c.isDigit = true) :
    Unsigned whole.length (whole ++ '.' :: fraction) := by
  have hplain : Plain (whole ++ '.' :: fraction) :=
    (plain_digits hwhole.digits).append (.cons (by decide) (plain_digits hdigits))
  have hexponent := fractionExponent_le (gather 0 whole).2 (gather 0 whole).1 fraction
  have hdropped := gather_le 0 whole
  refine ⟨hwhole.starts _, hplain, (gather (gather 0 whole).1 fraction).1,
    fractionExponent (gather 0 whole).2 (gather 0 whole).1 fraction,
    gather_lt fraction (gather_fresh_lt whole), by omega, fun negative rest hrest => ?_⟩
  rw [List.append_assoc, List.cons_append,
    numberBody_whole hwhole (noDigit_cons _ (by decide)), numberTail, if_pos rfl,
    fractionPart_ends hne hdigits hrest]

theorem isDigit_of_mem_zeros {count : Nat} {c : Char} (h : c ∈ List.replicate count '0') :
    c.isDigit = true := by
  rw [List.eq_of_mem_replicate h]
  rfl

/-- A positive number written with a point. -/
theorem unsigned_pointText {n : Nat} (h : 0 < n) (whole : Int) :
    Unsigned (max whole 1) (Decimal.pointText (Decimal.digitText n) whole) := by
  have hhead := head?_digitText h
  have hdigits : ∀ c ∈ Decimal.digitText n, c.isDigit = true := fun c hc =>
    isDigit_of_mem_digitText hc
  obtain ⟨c, more, htext⟩ := List.exists_cons_of_ne_nil (digitText_ne_nil n)
  rw [htext] at hhead hdigits ⊢
  unfold Decimal.pointText
  split
  next hsmall =>
    have hfraction : ∀ d ∈ List.replicate (-whole).toNat '0' ++ c :: more, d.isDigit = true := by
      intro d hd
      rcases List.mem_append.mp hd with hd | hd
      · exact isDigit_of_mem_zeros hd
      · exact hdigits d hd
    exact (unsigned_point wholeDigits_zero (by simp) hfraction).mono (le_max_right _ _)
  next hlarge =>
    split
    next hzeros =>
      have hwhole : WholeDigits (c :: more ++
          List.replicate (whole.toNat - (c :: more).length) '0') := by
        refine ⟨by simp, fun d hd => ?_, fun hzero => absurd hzero hhead⟩
        rcases List.mem_append.mp hd with hd | hd
        · exact hdigits d hd
        · exact isDigit_of_mem_zeros hd
      have hzero : ∀ d ∈ ['0'], d.isDigit = true := by simp
      refine (unsigned_point hwhole (List.cons_ne_nil _ _) hzero).mono ?_
      rw [List.length_append, List.length_replicate]
      omega
    next hcut =>
      obtain ⟨k, hk⟩ : ∃ k, whole.toNat = k + 1 := ⟨whole.toNat - 1, by omega⟩
      have hwhole : WholeDigits ((c :: more).take whole.toNat) := by
        refine ⟨by simp [hk], fun d hd => hdigits d (List.mem_of_mem_take hd), fun hzero => ?_⟩
        rw [hk, List.take_succ_cons] at hzero
        exact absurd hzero hhead
      refine (unsigned_point hwhole (by simp only [ne_eq, List.drop_eq_nil_iff]; omega)
        fun d hd => hdigits d (List.mem_of_mem_drop hd)).mono ?_
      rw [List.length_take]
      omega

theorem plain_integerText (i : Int) : Plain (Decimal.integerText i) := by
  have hdigits : Plain (Decimal.digitText i.natAbs) :=
    plain_digits fun c hc => isDigit_of_mem_digitText hc
  unfold Decimal.integerText
  split
  · exact hdigits.cons (by decide)
  · exact hdigits

theorem plain_signedText (shift : Int) : Plain ('e' :: signedText shift) := by
  refine .cons (by decide) (.append ?_ (plain_integerText shift))
  split
  · exact plain_nil
  · exact plain_nil.cons (by decide)

/-- Whole digits in front of an exponent. -/
theorem unsigned_exponent {whole : List Char} (hwhole : WholeDigits whole) (shift : Int) :
    Unsigned (whole.length + shift) (whole ++ 'e' :: signedText shift) := by
  have hplain : Plain (whole ++ 'e' :: signedText shift) :=
    (plain_digits hwhole.digits).append (plain_signedText shift)
  have hdropped := gather_le 0 whole
  refine ⟨hwhole.starts _, hplain, (gather 0 whole).1, (gather 0 whole).2 + shift,
    gather_fresh_lt whole, by omega, fun negative rest hrest => ?_⟩
  rw [List.append_assoc, List.cons_append, numberBody_whole hwhole (noDigit_cons _ rfl)]
  exact exponentPart_signedText negative _ _ shift hrest

/-- Digits on both sides of a point in front of an exponent. -/
theorem unsigned_pointExponent {whole fraction : List Char} (hwhole : WholeDigits whole)
    (hne : fraction ≠ []) (hdigits : ∀ c ∈ fraction, c.isDigit = true) (shift : Int) :
    Unsigned (whole.length + shift) (whole ++ '.' :: (fraction ++ 'e' :: signedText shift)) := by
  have hplain : Plain (whole ++ '.' :: (fraction ++ 'e' :: signedText shift)) :=
    (plain_digits hwhole.digits).append
      (.cons (by decide) ((plain_digits hdigits).append (plain_signedText shift)))
  have hdropped := gather_le 0 whole
  have hexponent := fractionExponent_le (gather 0 whole).2 (gather 0 whole).1 fraction
  refine ⟨hwhole.starts _, hplain, (gather (gather 0 whole).1 fraction).1,
    fractionExponent (gather 0 whole).2 (gather 0 whole).1 fraction + shift,
    gather_lt fraction (gather_fresh_lt whole), by omega, fun negative rest hrest => ?_⟩
  rw [List.append_assoc, List.cons_append, List.append_assoc, List.cons_append,
    numberBody_whole hwhole (noDigit_cons _ (by decide)), numberTail, if_pos rfl,
    fractionPart_exponent hne hdigits rfl]
  exact exponentPart_signedText negative _ _ shift hrest

/-- A positive number written with an exponent. -/
theorem unsigned_exponentText {n : Nat} (h : 0 < n) (shift : Int) :
    Unsigned (shift + 1) (Decimal.exponentText (Decimal.digitText n) shift) := by
  have hhead := head?_digitText h
  have hdigits : ∀ c ∈ Decimal.digitText n, c.isDigit = true := fun c hc =>
    isDigit_of_mem_digitText hc
  obtain ⟨c, more, htext⟩ := List.exists_cons_of_ne_nil (digitText_ne_nil n)
  rw [htext] at hhead hdigits ⊢
  obtain ⟨hc, hmore⟩ := List.forall_mem_cons.mp hdigits
  have hwhole : WholeDigits [c] := ⟨by simp, by simpa using hc, fun hzero => absurd hzero hhead⟩
  have hone : (([c].length : Nat) : Int) + shift ≤ shift + 1 := by
    rw [List.length_singleton]
    omega
  unfold Decimal.exponentText
  cases more with
  | nil => exact (unsigned_exponent hwhole shift).mono hone
  | cons d more =>
    have hfraction := (unsigned_pointExponent hwhole (List.cons_ne_nil d more) hmore shift).mono hone
    simpa [signedText] using hfraction

/-- A positive decimal in either layout. -/
theorem unsigned_decimalText (layout : Decimal.Layout) {d : Decimal} {bound : Int}
    (h : 0 < d.digits) (hone : 1 ≤ bound) (hplace : d.scientific < bound) :
    Unsigned bound (layout.decimalText d) := by
  unfold Decimal.Layout.decimalText
  dsimp only
  split
  next hpoint => exact (unsigned_pointText h _).mono (max_le (by omega) hone)
  next hexponent => exact (unsigned_exponentText h _).mono (by omega)

end CavityConsole.Json

import CavityConsole.Proofs.Decimal.Interval
import CavityConsole.Proofs.Json.Fragment
import CavityConsole.Proofs.Json.Recognition

/-!
# Written decimals as numbers of a document

A number of the grammar is read as what it stands for (`fragment_numeral`). The text of a decimal is
such a number (`Layout.numeral`), whose digits are the digits of the decimal. They are taken as they
are and scaled by the exponent of the decimal, with one exception: an integer that is written
positionally ends in `.0`, so its digits come with all their zeros and one more, and are scaled down
by ten (`Layout.taken`, `scientific_numeral_eq`). Either way they stand for the decimal
(`value_taken`).
-/

namespace CavityConsole.Json

/-! ## Numbers of the grammar -/

theorem Exponent.WellFormed.plain {e : Exponent} (h : e.WellFormed) : Plain e.text := by
  obtain ⟨hmark, hsign, hdigits, -⟩ := h
  refine .cons ?_ (.append ?_ (plain_digits hdigits))
  · rw [isExponentMark, Bool.or_eq_true, beq_iff_eq, beq_iff_eq] at hmark
    rcases hmark with hmark | hmark
    · rw [hmark]
      decide
    · rw [hmark]
      decide
  · rcases hsign with hsign | hsign | hsign
    · rw [hsign]
      exact plain_nil
    · rw [hsign]
      exact plain_of_all rfl
    · rw [hsign]
      exact plain_of_all rfl

theorem Numeral.WellFormed.plain {n : Numeral} (h : n.WellFormed) : Plain n.magnitude := by
  obtain ⟨hwhole, hfraction, hexponent⟩ := h
  have hbehind : Plain ((n.fraction.map ('.' :: ·)).getD []) := by
    cases hcase : n.fraction with
    | none => exact plain_nil
    | some digits => exact (plain_digits (hfraction digits hcase).2).cons (by decide)
  have hend : Plain ((n.exponent.map Exponent.text).getD []) := by
    cases hcase : n.exponent with
    | none => exact plain_nil
    | some e => exact (hexponent e hcase).plain
  exact (plain_digits hwhole.digits).append (hbehind.append hend)

/-- **A number of the grammar is read as what it stands for.** -/
theorem fragment_numeral (depth : Nat) {n : Numeral} {number : Number} (hn : n.WellFormed)
    (hread : n.Reads number) : Fragment depth n.text (.number number) := by
  refine fragment_number n.negative (hn.whole.starts _) hn.plain fun rest hrest => ?_
  rw [numberBody_magnitude hn hrest, Numeral.read_eq_ok_iff.mpr hread]
  rfl

/-- What a zero is written as, as a number of the grammar. -/
def zeroNumeral (negative : Bool) : Numeral := ⟨negative, ['0'], some ['0'], none⟩

theorem wellFormed_zeroNumeral (negative : Bool) : (zeroNumeral negative).WellFormed := by
  refine ⟨wholeDigits_zero, ?_, by simp [zeroNumeral]⟩
  intro digits hmem
  cases hmem
  exact ⟨by simp, by simp⟩

end CavityConsole.Json

namespace CavityConsole.Decimal

open Json

/-- Digits with a point among them or beside them, as a number of the grammar. -/
def pointNumeral (negative : Bool) (digits : List Char) (whole : Int) : Numeral :=
  if whole ≤ 0 then
    ⟨negative, ['0'], some (List.replicate (-whole).toNat '0' ++ digits), none⟩
  else if digits.length ≤ whole.toNat then
    ⟨negative, digits ++ List.replicate (whole.toNat - digits.length) '0', some ['0'], none⟩
  else
    ⟨negative, digits.take whole.toNat, some (digits.drop whole.toNat), none⟩

/-- Digits with an exponent, as a number of the grammar. -/
def exponentNumeral (negative : Bool) (digits : List Char) (exponent : Int) : Numeral :=
  ⟨negative, digits.take 1, if (digits.drop 1).isEmpty then none else some (digits.drop 1),
    some (.ofInt exponent)⟩

/-- A positive decimal, as a number of the grammar. -/
def Layout.numeral (layout : Layout) (negative : Bool) (d : Decimal) : Numeral :=
  if layout.least ≤ d.scientific ∧ d.scientific ≤ layout.greatest then
    pointNumeral negative (digitText d.digits) (d.scientific + 1)
  else exponentNumeral negative (digitText d.digits) d.scientific

/-! ## The text -/

theorem magnitude_pointNumeral (negative : Bool) (digits : List Char) (whole : Int) :
    (pointNumeral negative digits whole).magnitude = pointText digits whole := by
  unfold pointNumeral pointText Numeral.magnitude
  split
  · simp
  · split
    · simp
    · simp

theorem text_ofInt (exponent : Int) :
    (Exponent.ofInt exponent).text = 'e' :: signedText exponent := by
  have hsigned := signedText_eq exponent []
  rw [List.append_nil, List.append_nil] at hsigned
  rw [hsigned]
  rfl

theorem magnitude_exponentNumeral (negative : Bool) (digits : List Char) (exponent : Int) :
    (exponentNumeral negative digits exponent).magnitude = exponentText digits exponent := by
  unfold exponentNumeral exponentText Numeral.magnitude
  dsimp only
  rw [Option.map_some, Option.getD_some, text_ofInt, signedText]
  cases digits.drop 1 with
  | nil => simp
  | cons c more => simp

theorem magnitude_numeral (layout : Layout) (negative : Bool) (d : Decimal) :
    (layout.numeral negative d).magnitude = layout.decimalText d := by
  unfold Layout.numeral Layout.decimalText
  dsimp only
  split
  · exact magnitude_pointNumeral _ _ _
  · exact magnitude_exponentNumeral _ _ _

theorem negative_numeral (layout : Layout) (negative : Bool) (d : Decimal) :
    (layout.numeral negative d).negative = negative := by
  unfold Layout.numeral pointNumeral
  split
  · split
    · rfl
    · split <;> rfl
  · rfl

/-! ## The form -/

section

variable {n : Nat} (hn : 0 < n)
include hn

theorem wellFormed_pointNumeral (negative : Bool) (whole : Int) :
    (pointNumeral negative (digitText n) whole).WellFormed := by
  have hdigits : ∀ c ∈ digitText n, c.isDigit = true := fun _ => isDigit_of_mem_digitText
  have hhead := head?_digitText hn
  obtain ⟨c, more, htext⟩ := List.exists_cons_of_ne_nil (digitText_ne_nil n)
  rw [htext] at hhead hdigits ⊢
  unfold pointNumeral
  split
  next =>
    refine ⟨wholeDigits_zero, ?_, by simp⟩
    intro digits hmem
    cases hmem
    refine ⟨by simp, List.forall_mem_append.mpr ⟨fun _ => isDigit_of_mem_zeros, hdigits⟩⟩
  next hwhole =>
    split
    next =>
      refine ⟨⟨by simp, ?_, fun hzero => absurd hzero hhead⟩, ?_, by simp⟩
      · exact List.forall_mem_append.mpr ⟨hdigits, fun _ => isDigit_of_mem_zeros⟩
      · intro digits hmem
        cases hmem
        exact ⟨by simp, by simp⟩
    next hcut =>
      obtain ⟨k, hk⟩ : ∃ k, whole.toNat = k + 1 := ⟨whole.toNat - 1, by omega⟩
      refine ⟨⟨by simp [hk], fun d hd => hdigits d (List.mem_of_mem_take hd), fun hzero => ?_⟩,
        ?_, by simp⟩
      · rw [hk, List.take_succ_cons] at hzero
        exact absurd hzero hhead
      · intro digits hmem
        cases hmem
        refine ⟨?_, fun d hd => hdigits d (List.mem_of_mem_drop hd)⟩
        simp only [ne_eq, List.drop_eq_nil_iff]
        omega

theorem wellFormed_exponentNumeral (negative : Bool) (exponent : Int) :
    (exponentNumeral negative (digitText n) exponent).WellFormed := by
  have hdigits : ∀ c ∈ digitText n, c.isDigit = true := fun _ => isDigit_of_mem_digitText
  have hhead := head?_digitText hn
  obtain ⟨c, more, htext⟩ := List.exists_cons_of_ne_nil (digitText_ne_nil n)
  rw [htext] at hhead hdigits ⊢
  obtain ⟨hc, hmore⟩ := List.forall_mem_cons.mp hdigits
  have hfirst : WholeDigits [c] := ⟨by simp, by simpa using hc, fun hzero => absurd hzero hhead⟩
  refine ⟨hfirst, ?_, ?_⟩
  · intro digits hmem
    cases more with
    | nil => cases hmem
    | cons d more =>
      cases hmem
      exact ⟨by simp, hmore⟩
  · intro e hmem
    cases hmem
    exact Exponent.wellFormed_ofInt exponent

end

theorem wellFormed_numeral (layout : Layout) (negative : Bool) {d : Decimal} (h : 0 < d.digits) :
    (layout.numeral negative d).WellFormed := by
  unfold Layout.numeral
  split
  · exact wellFormed_pointNumeral h _ _
  · exact wellFormed_exponentNumeral h _ _

/-- A written decimal always has a fraction or an exponent. -/
theorem not_isInteger_numeral (layout : Layout) (negative : Bool) (d : Decimal) :
    ¬ (layout.numeral negative d).IsInteger := by
  rintro ⟨hfraction, hexponent, -⟩
  unfold Layout.numeral pointNumeral exponentNumeral at hfraction hexponent
  split at hfraction
  · split at hfraction
    · cases hfraction
    · split at hfraction <;> cases hfraction
  next hlayout =>
    rw [if_neg hlayout] at hexponent
    cases hexponent

/-! ## The digits -/

/-- Where all digits find a place, they are taken as one number. -/
theorem scientific_of_digits {numeral : Numeral} {n : Nat}
    (h : Nat.ofDigitChars 10 (numeral.whole ++ numeral.fraction.getD []) 0 = n)
    (hn : n < significandBound) :
    numeral.scientific = (n, -((numeral.fraction.getD []).length : Int) +
      (numeral.exponent.map Exponent.shift).getD 0) := by
  rw [Nat.ofDigitChars_append] at h
  have hwhole := le_ofDigitChars (numeral.fraction.getD []) (Nat.ofDigitChars 10 numeral.whole 0)
  unfold Numeral.scientific
  rw [gather_eq (by omega)]
  cases hfraction : numeral.fraction with
  | none =>
    rw [hfraction, Option.getD_none, Nat.ofDigitChars_nil] at h
    simp [h]
  | some digits =>
    rw [hfraction, Option.getD_some] at h
    simp [gather_eq (h ▸ hn), h, fractionExponent]

theorem ofDigitChars_digitText (n : Nat) : Nat.ofDigitChars 10 (digitText n) 0 = n :=
  Nat.ofDigitChars_toDigits (by decide) (by decide)

/-- The digits of a decimal written positionally. An integer comes with a zero behind the point. -/
theorem scientific_pointNumeral (negative : Bool) {n : Nat} {whole : Int}
    (hn : n < significandBound)
    (hwhole : n * 10 ^ (whole - digitCount n + 1).toNat < significandBound) :
    (pointNumeral negative (digitText n) whole).scientific =
      if (digitCount n : Int) ≤ whole ∧ 0 < whole then
        (n * 10 ^ (whole - digitCount n + 1).toNat, -1)
      else (n, whole - digitCount n) := by
  have hvalue := ofDigitChars_digitText n
  have hcount : (digitText n).length = digitCount n := rfl
  unfold pointNumeral
  split
  next hsmall =>
    rw [if_neg (by omega), scientific_of_digits ?_ hn]
    · simp [hcount]
      omega
    · show Nat.ofDigitChars 10 (['0'] ++ (List.replicate (-whole).toNat '0' ++ digitText n)) 0 = n
      rw [Nat.ofDigitChars_append, Nat.ofDigitChars_append, Nat.ofDigitChars_replicate_zero]
      exact hvalue
  next hlarge =>
    split
    next hzeros =>
      rw [if_pos (by omega), scientific_of_digits ?_ hwhole]
      · rfl
      · have hpower : (whole - digitCount n + 1).toNat = whole.toNat - digitCount n + 1 := by omega
        show Nat.ofDigitChars 10
          (digitText n ++ List.replicate (whole.toNat - digitCount n) '0' ++ ['0']) 0 = _
        rw [Nat.ofDigitChars_append, Nat.ofDigitChars_append, Nat.ofDigitChars_replicate_zero,
          hvalue, hpower, Nat.pow_succ]
        show 10 * (10 ^ (whole.toNat - digitCount n) * n) + 0 = _
        ring
    next hcut =>
      rw [if_neg (by omega), scientific_of_digits ?_ hn]
      · simp [hcount]
        omega
      · show Nat.ofDigitChars 10
          ((digitText n).take whole.toNat ++ (digitText n).drop whole.toNat) 0 = n
        rw [List.take_append_drop, hvalue]

theorem scientific_exponentNumeral (negative : Bool) {n : Nat} {exponent : Int}
    (hn : n < significandBound) :
    (exponentNumeral negative (digitText n) exponent).scientific =
      (n, exponent - (digitCount n - 1 : Nat)) := by
  have hvalue := ofDigitChars_digitText n
  have hcount : (digitText n).length = digitCount n := rfl
  have hfraction : ((exponentNumeral negative (digitText n) exponent).fraction).getD [] =
      (digitText n).drop 1 := by
    unfold exponentNumeral
    cases (digitText n).drop 1 with
    | nil => rfl
    | cons c more => rfl
  rw [scientific_of_digits ?_ hn, hfraction]
  · show (n, _ + (Exponent.ofInt exponent).shift) = _
    rw [Exponent.shift_ofInt, List.length_drop, hcount]
    congr 1
    omega
  · rw [hfraction]
    show Nat.ofDigitChars 10 ((digitText n).take 1 ++ (digitText n).drop 1) 0 = n
    rw [List.take_append_drop, hvalue]

/-- The significand and the power of ten that a written decimal is read as. -/
def Layout.taken (layout : Layout) (d : Decimal) : Nat × Int :=
  if 0 ≤ d.exponent ∧ layout.least ≤ d.scientific ∧ d.scientific ≤ layout.greatest then
    (d.digits * 10 ^ (d.exponent + 1).toNat, -1)
  else (d.digits, d.exponent)

/-- **The digits of a written decimal are taken as they are**, unless it is an integer that is
written positionally. -/
theorem scientific_numeral_eq (layout : Layout) (negative : Bool) {d : Decimal}
    (hd : d.digits < significandBound)
    (hwhole : 0 ≤ d.exponent → d.scientific ≤ layout.greatest →
      d.digits * 10 ^ (d.exponent + 1).toNat < significandBound) :
    (layout.numeral negative d).scientific = layout.taken d := by
  have hcount := digitCount_pos d.digits
  -- so many places behind the digits the point stands
  have hplaces : d.scientific + 1 - digitCount d.digits = d.exponent := by
    unfold scientific
    omega
  unfold Layout.numeral Layout.taken
  split
  next hlayout =>
    rcases lt_or_ge d.exponent 0 with hneg | hpos
    · have hnone : (d.exponent + 1).toNat = 0 := by omega
      rw [scientific_pointNumeral negative hd (by rw [hplaces, hnone, pow_zero, mul_one]; exact hd),
        if_neg (by omega), if_neg (by omega), hplaces]
    · rw [scientific_pointNumeral negative hd (by rw [hplaces]; exact hwhole hpos hlayout.2),
        if_pos (by omega), if_pos ⟨hpos, hlayout⟩, hplaces]
  next hlayout =>
    rw [scientific_exponentNumeral negative hd, if_neg fun h => hlayout h.2]
    refine Prod.ext rfl ?_
    dsimp only
    omega

theorem scientific_numeral (layout : Layout) (negative : Bool) {d : Decimal}
    (hd : d.digits < significandBound)
    (hwhole : 0 ≤ d.exponent → d.scientific ≤ layout.greatest →
      d.digits * 10 ^ (d.exponent + 1).toNat < significandBound) :
    (layout.numeral negative d).scientific = (d.digits, d.exponent) ∨
      (0 ≤ d.exponent ∧ d.scientific ≤ layout.greatest ∧
        (layout.numeral negative d).scientific =
          (d.digits * 10 ^ (d.exponent + 1).toNat, -1)) := by
  rw [scientific_numeral_eq layout negative hd hwhole, Layout.taken]
  split
  next h => exact .inr ⟨h.1, h.2.2, rfl⟩
  next => exact .inl rfl

/-- What is taken of a decimal is its number. -/
theorem value_taken (layout : Layout) (d : Decimal) :
    ((layout.taken d).1 * 10 ^ (layout.taken d).2 : ℚ) = d.value := by
  unfold Layout.taken
  split
  next h =>
    obtain ⟨p, hp⟩ : ∃ p : Nat, d.exponent = p := ⟨d.exponent.toNat, by omega⟩
    have hpower : (d.exponent + 1).toNat = p + 1 := by omega
    rw [value, hpower, hp, zpow_natCast, zpow_neg_one]
    push_cast
    rw [pow_succ]
    field_simp
  next => rfl

/-- The digits of a decimal and the zeros behind them, up to the point and one more. -/
theorem whole_digits_lt {d : Decimal} (greatest : Nat) (hwhole : 0 ≤ d.exponent)
    (hplace : d.scientific ≤ greatest) :
    d.digits * 10 ^ (d.exponent + 1).toNat < 10 ^ (greatest + 2) := by
  have hcount := digitCount_pos d.digits
  have hlong : digitCount d.digits + (d.exponent + 1).toNat ≤ greatest + 2 := by
    unfold scientific at hplace
    omega
  calc d.digits * 10 ^ (d.exponent + 1).toNat
      < 10 ^ digitCount d.digits * 10 ^ (d.exponent + 1).toNat :=
        Nat.mul_lt_mul_of_pos_right (lt_pow_digitCount _) (Nat.pow_pos (by decide))
    _ = 10 ^ (digitCount d.digits + (d.exponent + 1).toNat) := (Nat.pow_add _ _ _).symm
    _ ≤ 10 ^ (greatest + 2) := Nat.pow_le_pow_right (by decide) hlong

end CavityConsole.Decimal

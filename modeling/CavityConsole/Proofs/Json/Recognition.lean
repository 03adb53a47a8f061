import CavityConsole.Proofs.Json.Grammar
import CavityConsole.Proofs.Outcome

/-!
# Which strings and numbers are read

The readers of strings and numbers take exactly the tokens of the grammar. What they take is such a
token (`quoted_of_stringBody`, `numeral_of_numberBody`). Such a token is taken in front of anything
that cannot go on it (`stringBody_of_quoted`, `numberBody_magnitude`).

A number is read from the left, and what is known of it by then is carried on. `Numeral.read` is
that computation, and `Numeral.read_eq_ok_iff` says that it comes to what the grammar says.
-/

namespace CavityConsole.Json

/-! ## Strings -/

theorem fourDigits_of_hexEscape {cs rest : List Char} {n : Nat}
    (h : hexEscape cs = .ok (n, rest)) : ∃ digits, FourDigits digits n ∧ cs = digits ++ rest := by
  unfold hexEscape at h
  split at h
  next a b c d more =>
    split at h
    next w x y z ha hb hc hd =>
      cases h
      exact ⟨[a, b, c, d], ⟨ha, hb, hc, hd⟩, rfl⟩
    next => cases h
  next => split at h <;> cases h

theorem hexEscape_of_fourDigits {digits : List Char} {n : Nat} (h : FourDigits digits n)
    (rest : List Char) : hexEscape (digits ++ rest) = .ok (n, rest) := by
  obtain ⟨ha, hb, hc, hd⟩ := h
  simp only [hexEscape, List.cons_append, List.nil_append, ha, hb, hc, hd]

theorem isLowSurrogate_of_high {n : Nat} (h : isHighSurrogate n = true) :
    isLowSurrogate n = false := by
  simp only [isHighSurrogate, Bool.and_eq_true, decide_eq_true_eq] at h
  simp only [isLowSurrogate, Bool.and_eq_false_iff, decide_eq_false_iff_not]
  omega

theorem lowEscape_sound {high : Nat} {cs rest : List Char} {c : Char}
    (h : lowEscape high cs = .ok (c, rest)) :
    ∃ digits n, FourDigits digits n ∧ isLowSurrogate n = true ∧
      cs = '\\' :: 'u' :: (digits ++ rest) ∧ c = surrogatePair high n := by
  unfold lowEscape at h
  split at h
  next => cases h
  next => cases h
  next =>
    split at h
    next => cases h
    next low more hhex =>
      split at h
      next hlow =>
        obtain ⟨rfl, rfl⟩ := Prod.mk.inj (Except.ok.inj h)
        obtain ⟨digits, hdigits, rfl⟩ := fourDigits_of_hexEscape hhex
        exact ⟨digits, low, hdigits, hlow, rfl, rfl⟩
      next => cases h
  next => cases h

theorem unicodeEscape_sound {cs rest : List Char} {c : Char}
    (h : unicodeEscape cs = .ok (c, rest)) :
    ∃ written, Escape ('u' :: written) c ∧ cs = written ++ rest := by
  unfold unicodeEscape at h
  split at h
  next => cases h
  next n more hhex =>
    obtain ⟨digits, hdigits, rfl⟩ := fourDigits_of_hexEscape hhex
    split at h
    next => cases h
    next hlow =>
      split at h
      next hhigh =>
        obtain ⟨second, m, hsecond, hlow, rfl, hc⟩ := lowEscape_sound h
        rw [hc]
        refine ⟨_, .pair hdigits hsecond hhigh hlow, ?_⟩
        simp only [List.append_assoc, List.cons_append]
      next hhigh =>
        obtain ⟨rfl, rfl⟩ := Prod.mk.inj (Except.ok.inj h)
        exact ⟨digits, .single hdigits (Bool.eq_false_iff.mpr hhigh) (Bool.eq_false_iff.mpr hlow),
          rfl⟩

/-- What is taken behind a backslash is an escape. -/
theorem escape_sound {cs rest : List Char} {c : Char} (h : escape cs = .ok (c, rest)) :
    ∃ written, Escape written c ∧ cs = written ++ rest := by
  have hshort {letter d : Char} {more : List Char} (hletter : ShortEscape letter d)
      (hmore : (.ok (d, more) : Scan Char) = .ok (c, rest)) :
      ∃ written, Escape written c ∧ letter :: more = written ++ rest := by
    obtain ⟨rfl, rfl⟩ := Prod.mk.inj (Except.ok.inj hmore)
    exact ⟨[letter], .short hletter, rfl⟩
  unfold escape at h
  split at h
  next => cases h
  next => exact hshort .quote h
  next => exact hshort .backslash h
  next => exact hshort .slash h
  next => exact hshort .backspace h
  next => exact hshort .formFeed h
  next => exact hshort .newline h
  next => exact hshort .carriageReturn h
  next => exact hshort .tab h
  next =>
    obtain ⟨written, hescape, rfl⟩ := unicodeEscape_sound h
    exact ⟨_, hescape, rfl⟩
  next => cases h

theorem escape_written {written : List Char} {c : Char} (h : Escape written c)
    (rest : List Char) : escape (written ++ rest) = .ok (c, rest) := by
  cases h with
  | short h => cases h <;> rfl
  | single hdigits hhigh hlow =>
    rw [List.cons_append, escape, unicodeEscape, hexEscape_of_fourDigits hdigits]
    simp only [hhigh, hlow, Bool.false_eq_true, if_false]
  | pair hfirst hsecond hhigh hlow =>
    rw [List.cons_append, List.append_assoc, escape, unicodeEscape, hexEscape_of_fourDigits hfirst]
    simp only [isLowSurrogate_of_high hhigh, hhigh, Bool.false_eq_true, if_false, if_true,
      List.cons_append, lowEscape]
    rw [hexEscape_of_fourDigits hsecond]
    simp only [hlow, if_true]

/-- What is taken behind a quote is what may stand between two quotes, up to the second one. -/
theorem quoted_of_stringBody {room : Nat} {done cs rest : List Char} {s : String}
    (h : stringBody room done cs = .ok (s, rest)) :
    ∃ raw chars, Quoted raw chars ∧ cs = raw ++ '"' :: rest ∧
      s = String.ofList (done.reverse ++ chars) := by
  -- each turn takes the closing quote, an escape, or a character that stands for itself
  induction room generalizing done cs with
  | zero => cases h
  | succ room ih =>
    cases cs with
    | nil => cases h
    | cons c cs =>
      rw [stringBody] at h
      split at h
      next hquote =>
        obtain ⟨rfl, rfl⟩ := Prod.mk.inj (Except.ok.inj h)
        exact ⟨[], [], .nil, by rw [hquote, List.nil_append], by rw [List.append_nil]⟩
      next hquote =>
        split at h
        next hbackslash =>
          split at h
          next => cases h
          next e more hescape =>
            obtain ⟨written, hwritten, rfl⟩ := escape_sound hescape
            obtain ⟨raw, chars, hquoted, rfl, rfl⟩ := ih h
            refine ⟨_, _, .escape hwritten hquoted, ?_, ?_⟩
            · rw [hbackslash, List.cons_append, List.append_assoc]
            · rw [List.reverse_cons, List.append_assoc, List.singleton_append]
        next hbackslash =>
          split at h
          next => cases h
          next hcontrol =>
            obtain ⟨raw, chars, hquoted, rfl, rfl⟩ := ih h
            refine ⟨_, _, .plain hquote hbackslash (Nat.le_of_not_lt hcontrol) hquoted, rfl, ?_⟩
            rw [List.reverse_cons, List.append_assoc, List.singleton_append]

theorem stringBody_of_quoted {raw chars : List Char} (h : Quoted raw chars) {room : Nat}
    (hroom : raw.length < room) (done rest : List Char) :
    stringBody room done (raw ++ '"' :: rest) =
      .ok (String.ofList (done.reverse ++ chars), rest) := by
  induction h generalizing room done with
  | nil =>
    obtain ⟨room, rfl⟩ := Nat.exists_eq_add_of_lt hroom
    rw [List.nil_append, stringBody, if_pos rfl, List.append_nil]
  | plain hquote hbackslash hvisible _ ih =>
    obtain ⟨room, rfl⟩ : ∃ k, room = k + 1 := ⟨room - 1, by omega⟩
    rw [List.cons_append, stringBody, if_neg hquote, if_neg hbackslash,
      if_neg (Nat.not_lt.mpr hvisible), ih (by simpa using hroom), List.reverse_cons,
      List.append_assoc, List.singleton_append]
  | escape hescape _ ih =>
    obtain ⟨room, rfl⟩ : ∃ k, room = k + 1 := ⟨room - 1, by omega⟩
    rw [List.length_cons, List.length_append] at hroom
    rw [List.cons_append, List.append_assoc, stringBody, if_neg (by decide), if_pos rfl,
      escape_written hescape]
    have hrest := ih (show _ < room by omega)
    simp only [hrest, List.reverse_cons, List.append_assoc,
      List.singleton_append]

/-! ## Numbers -/

theorem takeWhile_digits (cs : List Char) :
    ∀ c ∈ cs.takeWhile Char.isDigit, c.isDigit = true :=
  List.all_eq_true.mp List.all_takeWhile

/-- What is taken behind the mark of an exponent is a sign and digits. -/
theorem exponent_of_exponentPart {negative : Bool} {significand : Nat} {start : Int}
    {mark : Char} {cs rest : List Char} {number : Number} (hmark : isExponentMark mark = true)
    (h : exponentPart negative significand start cs = .ok (number, rest)) :
    ∃ e : Exponent, e.WellFormed ∧ mark :: cs = e.text ++ rest ∧
      real negative significand (start + e.shift) = .ok number := by
  obtain ⟨sign, tail, rfl, hsign, htake⟩ := exists_takeSign cs
  unfold exponentPart at h
  rw [htake] at h
  dsimp only at h
  split at h
  · cases h
  next c more =>
    split at h
    next hc =>
      obtain ⟨x, hx, hpair⟩ := map_eq_ok_iff.mp h
      cases hpair
      refine ⟨⟨mark, sign, (c :: more).takeWhile Char.isDigit⟩,
        ⟨hmark, hsign, takeWhile_digits _, ?_⟩, ?_, ?_⟩
      · rw [List.takeWhile_cons_of_pos hc]
        exact List.cons_ne_nil _ _
      · rw [Exponent.text, List.cons_append, List.append_assoc, List.takeWhile_append_dropWhile]
      · rw [Exponent.shift]
        simpa only [decide_eq_true_eq] using hx
    next => cases h

/-- What the part of a number behind its whole digits is read as. -/
def readTail (negative : Bool) (significand dropped : Nat) :
    Option (List Char) → Option Exponent → Except Fault Number
  | none, none => wholeNumber negative significand dropped
  | none, some e => real negative significand (dropped + e.shift)
  | some digits, exponent =>
    real negative (gather significand digits).1
      (fractionExponent dropped significand digits + (exponent.map Exponent.shift).getD 0)

/-- The part of a number behind its whole digits is taken in front of what cannot go on it. -/
theorem numberTail_text {fraction : Option (List Char)} {exponent : Option Exponent}
    (hfraction : ∀ digits ∈ fraction, digits ≠ [] ∧ ∀ c ∈ digits, c.isDigit = true)
    (hexponent : ∀ e ∈ exponent, e.WellFormed) (negative : Bool) (significand dropped : Nat)
    {rest : List Char} (hrest : Apart rest) :
    numberTail negative significand dropped
        ((fraction.map ('.' :: ·)).getD [] ++ ((exponent.map Exponent.text).getD [] ++ rest)) =
      (readTail negative significand dropped fraction exponent).map fun x => (x, rest) := by
  have hbehind {e : Exponent} (he : e.WellFormed) (significand : Nat) (start : Int) :=
    exponentPart_text he negative significand start hrest.noDigit
  cases fraction with
  | none =>
    cases exponent with
    | none =>
      -- only here the number ends without a character of its own
      cases rest with
      | nil => rfl
      | cons c rest =>
        obtain ⟨-, hpoint, hmark⟩ := hrest c rfl
        simp only [Option.map_none, Option.getD_none, List.nil_append, readTail]
        rw [numberTail, if_neg hpoint, if_neg (by simp [hmark])]
    | some e =>
      have he := hexponent e rfl
      have hpoint : e.mark ≠ '.' := by
        intro heq
        have hmark := he.mark
        rw [heq] at hmark
        cases hmark
      simp only [Option.map_none, Option.getD_none, List.nil_append, Option.map_some,
        Option.getD_some, Exponent.text, List.cons_append, List.append_assoc, readTail]
      rw [numberTail, if_neg hpoint, if_pos he.mark, hbehind he]
  | some digits =>
    obtain ⟨hne, hdigits⟩ := hfraction digits rfl
    simp only [Option.map_some, Option.getD_some, List.cons_append, readTail]
    rw [numberTail, if_pos rfl]
    cases exponent with
    | none => simpa using fractionPart_ends hne hdigits hrest
    | some e =>
      have he := hexponent e rfl
      simp only [Option.map_some, Option.getD_some, Exponent.text, List.cons_append,
        List.append_assoc]
      rw [fractionPart_exponent hne hdigits he.mark, hbehind he]

theorem fraction_of_fractionPart {negative : Bool} {significand dropped : Nat}
    {cs rest : List Char} {x : Number}
    (h : fractionPart negative significand dropped cs = .ok (x, rest)) :
    ∃ digits exponent, (digits ≠ [] ∧ ∀ c ∈ digits, c.isDigit = true) ∧
      (∀ e ∈ exponent, Exponent.WellFormed e) ∧
      cs = digits ++ ((exponent.map Exponent.text).getD [] ++ rest) ∧
      readTail negative significand dropped (some digits) exponent = .ok x := by
  unfold fractionPart at h
  split at h
  · cases h
  next c more =>
    split at h
    next hc =>
      have hdigits : (c :: more).takeWhile Char.isDigit ≠ [] ∧
          ∀ d ∈ (c :: more).takeWhile Char.isDigit, d.isDigit = true := by
        refine ⟨?_, takeWhile_digits _⟩
        rw [List.takeWhile_cons_of_pos hc]
        exact List.cons_ne_nil _ _
      have hcut := (List.takeWhile_append_dropWhile (p := Char.isDigit) (l := c :: more)).symm
      -- of the digits nothing is needed but that there are some, and what is behind them
      generalize (c :: more).takeWhile Char.isDigit = digits at h hdigits hcut
      refine ⟨digits, ?_⟩
      dsimp only at h
      split at h
      next hdrop =>
        obtain ⟨y, hy, hpair⟩ := map_eq_ok_iff.mp h
        cases hpair
        refine ⟨none, hdigits, by simp, by simpa [hdrop] using hcut, ?_⟩
        simpa [readTail, fractionExponent] using hy
      next e behind hdrop =>
        split at h
        next hmark =>
          obtain ⟨exponent, hexponent, htext, hreal⟩ := exponent_of_exponentPart hmark h
          refine ⟨some exponent, hdigits, by simpa using hexponent, ?_, hreal⟩
          rw [hcut, hdrop, htext]
          rfl
        next =>
          obtain ⟨y, hy, hpair⟩ := map_eq_ok_iff.mp h
          cases hpair
          refine ⟨none, hdigits, by simp, by simpa [hdrop] using hcut, ?_⟩
          simpa [readTail, fractionExponent] using hy
    next => cases h

theorem tail_of_numberTail {negative : Bool} {significand dropped : Nat} {cs rest : List Char}
    {x : Number} (h : numberTail negative significand dropped cs = .ok (x, rest)) :
    ∃ fraction exponent,
      (∀ digits ∈ fraction, digits ≠ [] ∧ ∀ c ∈ digits, c.isDigit = true) ∧
      (∀ e ∈ exponent, Exponent.WellFormed e) ∧
      cs = (fraction.map ('.' :: ·)).getD [] ++ ((exponent.map Exponent.text).getD [] ++ rest) ∧
      readTail negative significand dropped fraction exponent = .ok x := by
  cases cs with
  | nil =>
    obtain ⟨y, hy, hpair⟩ := map_eq_ok_iff.mp h
    cases hpair
    exact ⟨none, none, by simp, by simp, rfl, hy⟩
  | cons c cs =>
    rw [numberTail] at h
    split at h
    next hpoint =>
      subst hpoint
      obtain ⟨digits, exponent, hdigits, hexponent, rfl, hread⟩ := fraction_of_fractionPart h
      exact ⟨some digits, exponent, by simpa using hdigits, hexponent, rfl, hread⟩
    next =>
      split at h
      next hmark =>
        obtain ⟨exponent, hexponent, htext, hreal⟩ := exponent_of_exponentPart hmark h
        exact ⟨none, some exponent, by simp, by simpa using hexponent, htext, hreal⟩
      next =>
        obtain ⟨y, hy, hpair⟩ := map_eq_ok_iff.mp h
        cases hpair
        exact ⟨none, none, by simp, by simp, rfl, hy⟩

/-- What a number is read as from the left. -/
def Numeral.read (n : Numeral) : Except Fault Number :=
  readTail n.negative (gather 0 n.whole).1 (gather 0 n.whole).2 n.fraction n.exponent

theorem numberBody_magnitude {n : Numeral} (h : n.WellFormed) {rest : List Char}
    (hrest : Apart rest) :
    numberBody n.negative (n.magnitude ++ rest) = n.read.map fun x => (x, rest) := by
  have htail := numberTail_text h.fraction h.exponent n.negative (gather 0 n.whole).1
    (gather 0 n.whole).2 hrest
  have hbehind : NoDigit ((n.fraction.map ('.' :: ·)).getD [] ++
      ((n.exponent.map Exponent.text).getD [] ++ rest)) := by
    cases hfraction : n.fraction with
    | some digits => exact noDigit_cons _ (by decide)
    | none =>
      cases hexponent : n.exponent with
      | some e => exact noDigit_mark _ (h.exponent e hexponent).mark
      | none => exact hrest.noDigit
  rw [Numeral.magnitude, List.append_assoc, List.append_assoc,
    numberBody_whole h.whole hbehind, htail, Numeral.read]

/-- What is taken as a number is a number as it may be written. -/
theorem numeral_of_numberBody {negative : Bool} {cs rest : List Char} {x : Number}
    (h : numberBody negative cs = .ok (x, rest)) :
    ∃ n : Numeral, n.WellFormed ∧ n.negative = negative ∧ cs = n.magnitude ++ rest ∧
      n.read = .ok x := by
  -- the two forms of whole digits differ only in how they are taken
  have hassemble {whole behind : List Char} (hwhole : WholeDigits whole)
      (htail : numberTail negative (gather 0 whole).1 (gather 0 whole).2 behind = .ok (x, rest)) :
      ∃ n : Numeral, n.WellFormed ∧ n.negative = negative ∧ whole ++ behind = n.magnitude ++ rest ∧
        n.read = .ok x := by
    obtain ⟨fraction, exponent, hfraction, hexponent, rfl, hread⟩ := tail_of_numberTail htail
    refine ⟨⟨negative, whole, fraction, exponent⟩, ⟨hwhole, hfraction, hexponent⟩, rfl, ?_, hread⟩
    simp only [Numeral.magnitude, List.append_assoc]
  cases cs with
  | nil => cases h
  | cons c cs =>
    rw [numberBody] at h
    split at h
    next hzero =>
      subst hzero
      split at h
      next => cases h
      next => exact hassemble wholeDigits_zero h
    next hzero =>
      split at h
      next hc =>
        have hwhole : WholeDigits ((c :: cs).takeWhile Char.isDigit) := by
          rw [List.takeWhile_cons_of_pos hc]
          refine ⟨List.cons_ne_nil _ _, ?_, fun hhead => absurd (Option.some.inj hhead) hzero⟩
          rw [← List.takeWhile_cons_of_pos hc]
          exact takeWhile_digits _
        obtain ⟨n, hn⟩ := hassemble hwhole h
        rw [List.takeWhile_append_dropWhile] at hn
        exact ⟨n, hn⟩
      next => cases h

/-! ## What numbers are read as -/

/-- Digits that reach the bound do not all find a place. -/
theorem gather_pos {significand : Nat} {digits : List Char} (hfits : significand < significandBound)
    (h : significandBound ≤ Nat.ofDigitChars 10 digits significand) :
    0 < (gather significand digits).2 := by
  induction digits generalizing significand with
  | nil => exact absurd hfits (Nat.not_lt.mpr h)
  | cons c digits ih =>
    rw [Nat.ofDigitChars_cons] at h
    rw [gather]
    split
    next hnext => exact ih hnext h
    next => exact Nat.succ_pos _

theorem real_eq_ok_iff {negative : Bool} {significand : Nat} {exponent : Int} {x : Number} :
    real negative significand exponent = .ok x ↔
      ∃ y, Decimal.scaled significand exponent = some y ∧
        x = .real (if negative then -y else y) := by
  unfold real
  cases Decimal.scaled significand exponent with
  | none => simp
  | some y => simp [eq_comm]

namespace Numeral

theorem IsInteger.read {n : Numeral} (h : n.IsInteger) : n.read = .ok (.integer n.integer) := by
  obtain ⟨negative, whole, fraction, exponent⟩ := n
  obtain ⟨rfl, rfl, hleast, hgreatest, hsign⟩ := h
  rw [integer] at hleast hgreatest hsign
  dsimp only at hleast hgreatest hsign
  have hbound : significandBound = 2 ^ 64 := rfl
  have hhalf : UInt64.size / 2 = 2 ^ 63 := rfl
  have hfits : Nat.ofDigitChars 10 whole 0 < significandBound := by
    cases negative with
    | false =>
      rw [if_neg (by decide)] at hgreatest
      omega
    | true =>
      rw [if_pos rfl] at hleast
      omega
  rw [Numeral.read, readTail, gather_eq hfits, wholeNumber, integer, if_neg (Nat.lt_irrefl 0)]
  dsimp only
  cases negative with
  | false => rfl
  | true =>
    have hpositive := hsign rfl
    rw [if_pos rfl] at hleast hpositive
    rw [if_neg (by decide), if_pos (by omega), if_pos rfl]

theorem read_of_not_isInteger {n : Numeral} (h : ¬ n.IsInteger) :
    n.read = real n.negative n.scientific.1 n.scientific.2 := by
  obtain ⟨negative, whole, fraction, exponent⟩ := n
  cases fraction with
  | some digits => rfl
  | none =>
    cases exponent with
    | some e => rfl
    | none =>
      have hbound : significandBound = 2 ^ 64 := rfl
      have hhalf : UInt64.size / 2 = 2 ^ 63 := rfl
      rw [Numeral.read, readTail, wholeNumber, scientific]
      simp only [Option.map_none, Option.getD_none, Int.add_zero]
      -- digits that fit are real only below the least integer or as a negative zero
      rcases Nat.lt_or_ge (Nat.ofDigitChars 10 whole 0) significandBound with hfits | hlarge
      · have hinteger : ¬ (-(2 ^ 63 : Int) ≤ integer ⟨negative, whole, none, none⟩ ∧
            integer ⟨negative, whole, none, none⟩ < (2 ^ 64 : Int) ∧
            (negative = true → integer ⟨negative, whole, none, none⟩ ≠ 0)) := by
          rintro ⟨hleast, hgreatest, hsign⟩
          exact h ⟨rfl, rfl, hleast, hgreatest, hsign⟩
        rw [integer] at hinteger
        rw [gather_eq hfits, if_neg (Nat.lt_irrefl 0)]
        cases negative with
        | false =>
          refine absurd ⟨?_, ?_, ?_⟩ hinteger
          · simp only [Bool.false_eq_true, if_false]
            omega
          · simp only [Bool.false_eq_true, if_false]
            omega
          · intro hfalse
            cases hfalse
        | true =>
          simp only [if_true, true_implies] at hinteger
          rw [if_neg (by decide), if_neg (by dsimp only; omega)]
          rfl
      · rw [if_pos (gather_pos (by decide) hlarge)]

/-- What a number is read as from the left is what it is read as. -/
theorem read_eq_ok_iff {n : Numeral} {x : Number} : n.read = .ok x ↔ n.Reads x := by
  constructor
  · intro h
    by_cases hinteger : n.IsInteger
    · obtain rfl := Except.ok.inj (hinteger.read.symm.trans h)
      exact .integer hinteger
    · rw [read_of_not_isInteger hinteger, real_eq_ok_iff] at h
      obtain ⟨y, hy, rfl⟩ := h
      exact .real hinteger hy
  · intro h
    cases h with
    | integer h => exact h.read
    | real h hfinite =>
      rw [read_of_not_isInteger h, real_eq_ok_iff]
      exact ⟨_, hfinite, rfl⟩

end Numeral

end CavityConsole.Json

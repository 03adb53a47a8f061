import CavityConsole.Json.Parser
import CavityConsole.Json.Printer
import CavityConsole.Proofs.Json.Numeral
import Mathlib.Data.List.Forall2

/-!
# What is written is read back

A `Fragment` is a text that stands for a value: it holds no control character, and wherever it
stands in a longer text it is read as that value and nothing behind it is touched. What is written
from fragments is a fragment again:

* `fragment_string`: a string, whatever its characters;
* `fragment_integer`, `fragment_real`: numbers;
* `fragment_array`: fragments between brackets, within one container more;
* `fragment_object`: named fragments between braces, as members set one after the other.

The two loops of the reader, over elements and over members, are each one induction on the values;
their room is the number of items, and no text has more items than characters.

**The law** (`Fragment.parse`): a fragment is read as its value when it stands alone.
-/

namespace CavityConsole.Json

/-- A text that stands for a value within `depth` containers. -/
structure Fragment (depth : Nat) (text : List Char) (v : Json) : Prop where
  /-- It starts with a character that neither is blank nor closes a list. -/
  opens : ∃ c more, text = c :: more ∧ isBlank c = false ∧ c ≠ ']'
  plain : Plain text
  /-- It is read as the value up to what cannot go on it. -/
  reads : ∀ room rest, text.length < room → Apart rest →
    value room depth (text ++ rest) = .ok (v, rest)

/-- A fragment alone is read as its value. -/
theorem Fragment.parse {text : List Char} {v : Json} (h : Fragment maxDepth text v) :
    Json.parse (String.ofList text) = .ok v := by
  have hvalue := h.reads (text.length + 1) [] (Nat.lt_succ_self _) apart_nil
  rw [List.append_nil] at hvalue
  rw [Json.parse, String.toList_ofList]
  simp only [hvalue]
  rfl

/-! ## Values from their first character on -/

theorem skipBlank_cons {c : Char} (rest : List Char) (h : isBlank c = false) :
    skipBlank (c :: rest) = c :: rest := by
  rw [skipBlank, List.dropWhile_cons_of_neg (by simp [h])]

/-- A value that opens no container. -/
theorem value_scalar {room depth : Nat} {c : Char} {rest : List Char} (hblank : isBlank c = false)
    (hlist : c ≠ '[') (hobject : c ≠ '\x7b') :
    value room depth (c :: rest) = scalar room c rest := by
  unfold value
  rw [skipBlank_cons rest hblank]
  simp only [if_neg hlist, if_neg hobject]

theorem value_array (room depth : Nat) (rest : List Char) :
    value room (depth + 1) ('[' :: rest) = arrayBody (value room depth) room rest := by
  rw [value, skipBlank_cons rest rfl]
  simp only [if_true]

theorem value_object (room depth : Nat) (rest : List Char) :
    value room (depth + 1) ('\x7b' :: rest) = objectBody (value room depth) room rest := by
  rw [value, skipBlank_cons rest rfl]
  simp only [if_true]
  rfl

/-! ## Words -/

theorem fragment_null (depth : Nat) : Fragment depth nullText .null := by
  refine ⟨⟨'n', _, rfl, rfl, by decide⟩, plain_of_all rfl, fun room rest _ _ => ?_⟩
  exact value_scalar rfl (by decide) (by decide)

theorem fragment_boolean (depth : Nat) (b : Bool) :
    Fragment depth (booleanText b) (.boolean b) := by
  cases b with
  | true =>
    refine ⟨⟨'t', _, rfl, rfl, by decide⟩, plain_of_all rfl, fun room rest _ _ => ?_⟩
    exact value_scalar rfl (by decide) (by decide)
  | false =>
    refine ⟨⟨'f', _, rfl, rfl, by decide⟩, plain_of_all rfl, fun room rest _ _ => ?_⟩
    exact value_scalar rfl (by decide) (by decide)

/-! ## Strings -/

theorem hexValue?_hexDigit {n : Nat} (h : n < 16) : hexValue? (hexDigit n) = some n := by
  have hall : ∀ n < 16, hexValue? (hexDigit n) = some n := by decide
  exact hall n h

theorem unicodeEscape_control {c : Char} (h : c.toNat < 0x20) (rest : List Char) :
    unicodeEscape ('0' :: '0' :: hexDigit (c.toNat / 16) :: hexDigit (c.toNat % 16) :: rest) =
      .ok (c, rest) := by
  have hhigh := hexValue?_hexDigit (n := c.toNat / 16) (by omega)
  have hlow := hexValue?_hexDigit (n := c.toNat % 16) (by omega)
  have hzero : hexValue? '0' = some 0 := by decide
  have hnumber : ((0 * 16 + 0) * 16 + c.toNat / 16) * 16 + c.toNat % 16 = c.toNat := by omega
  have hplain : isLowSurrogate c.toNat = false ∧ isHighSurrogate c.toNat = false := by
    simp only [isLowSurrogate, isHighSurrogate, Bool.and_eq_false_iff, decide_eq_false_iff_not]
    omega
  unfold unicodeEscape hexEscape
  simp only [hhigh, hlow, hzero, hnumber, hplain, Bool.false_eq_true, if_false, Char.ofNat_toNat]

/-- One character of a string is read as itself, however it is written. -/
theorem stringBody_escapeChar (room : Nat) (done : List Char) (c : Char) (rest : List Char) :
    stringBody (room + 1) done (escapeChar c ++ rest) = stringBody room (c :: done) rest := by
  unfold escapeChar
  -- seven characters have an escape of their own
  iterate 7
    split
    next h => subst h; rfl
  split
  next h =>
    simp only [List.cons_append, List.nil_append]
    rw [stringBody, if_neg (by decide), if_pos rfl, escape, unicodeEscape_control h]
  next hquote hbackslash _ _ _ _ _ h =>
    rw [List.singleton_append, stringBody, if_neg hquote, if_neg hbackslash, if_neg h]

theorem stringBody_escaped (cs : List Char) {room : Nat} (h : cs.length < room)
    (done rest : List Char) :
    stringBody room done (cs.flatMap escapeChar ++ '"' :: rest) =
      .ok (String.ofList (done.reverse ++ cs), rest) := by
  induction cs generalizing room done with
  | nil =>
    obtain ⟨room, rfl⟩ : ∃ k, room = k + 1 := ⟨room - 1, by omega⟩
    rw [List.flatMap_nil, List.nil_append, stringBody, if_pos rfl, List.append_nil]
  | cons c cs ih =>
    obtain ⟨room, rfl⟩ : ∃ k, room = k + 1 := ⟨room - 1, by omega⟩
    rw [List.flatMap_cons, List.append_assoc, stringBody_escapeChar,
      ih (by simpa using h), List.reverse_cons, List.append_assoc, List.singleton_append]

theorem plain_escapeChar (c : Char) : Plain (escapeChar c) := by
  have hhex : ∀ n < 16, 0x20 ≤ (hexDigit n).toNat := by decide
  unfold escapeChar
  -- the first seven cases are letters behind a backslash
  iterate 7
    split
    · exact plain_of_all rfl
  split
  next h =>
    have hdigits : Plain [hexDigit (c.toNat / 16), hexDigit (c.toNat % 16)] :=
      .cons (hhex _ (by omega)) (.cons (hhex _ (by omega)) plain_nil)
    have hfront : Plain ['\\', 'u', '0', '0'] := plain_of_all rfl
    exact hfront.append hdigits
  next h => exact plain_nil.cons (Nat.le_of_not_lt h)

theorem length_le_escaped (cs : List Char) : cs.length ≤ (cs.flatMap escapeChar).length := by
  induction cs with
  | nil => exact Nat.le_refl 0
  | cons c cs ih =>
    have hpos : 0 < (escapeChar c).length := by
      unfold escapeChar
      iterate 8
        split
        · exact Nat.succ_pos _
      exact Nat.succ_pos _
    rw [List.flatMap_cons, List.length_append, List.length_cons]
    omega

theorem plain_stringText (s : String) : Plain (stringText s) := by
  have hescaped : Plain (s.toList.flatMap escapeChar) := by
    intro c hc
    obtain ⟨d, -, hc⟩ := List.mem_flatMap.mp hc
    exact plain_escapeChar d c hc
  exact (hescaped.cons (by decide)).append (plain_of_all rfl)

/-- **A string is read back**, whatever its characters. -/
theorem fragment_string (depth : Nat) (s : String) : Fragment depth (stringText s) (.string s) := by
  refine ⟨⟨'"', _, rfl, rfl, by decide⟩, plain_stringText s, fun room rest hroom _ => ?_⟩
  have hlength : s.toList.length < room := by
    have hle := length_le_escaped s.toList
    unfold stringText at hroom
    simp only [List.length_append, List.length_cons] at hroom
    omega
  unfold stringText
  rw [List.cons_append, List.cons_append, List.append_assoc, List.singleton_append,
    value_scalar rfl (by decide) (by decide)]
  show (stringBody room [] _).map _ = _
  rw [stringBody_escaped _ hlength, List.reverse_nil, List.nil_append, String.ofList_toList]
  rfl

/-! ## Numbers -/

theorem ne_of_isDigit {c d : Char} (hc : c.isDigit = true) (hd : d.isDigit = false) : c ≠ d := by
  rintro rfl
  rw [hc] at hd
  cases hd

theorem isBlank_of_isDigit {c : Char} (h : c.isDigit = true) : isBlank c = false := by
  simp [isBlank, ne_of_isDigit h (d := ' ') rfl, ne_of_isDigit h (d := '\t') rfl,
    ne_of_isDigit h (d := '\n') rfl, ne_of_isDigit h (d := '\r') rfl]

/-- A number is read from its first digit on, or from behind its sign. -/
theorem value_numberBody {room depth : Nat} {c : Char} (rest : List Char) (h : c.isDigit = true)
    (negative : Bool) :
    value room depth (if negative then '-' :: c :: rest else c :: rest) =
      (numberBody negative (c :: rest)).map fun n => (.number n.1, n.2) := by
  cases negative with
  | true => exact value_scalar rfl (by decide) (by decide)
  | false =>
    refine (value_scalar (isBlank_of_isDigit h) (ne_of_isDigit h rfl)
      (ne_of_isDigit h rfl)).trans ?_
    rw [scalar, if_neg (ne_of_isDigit h rfl), if_neg (ne_of_isDigit h rfl),
      if_neg (ne_of_isDigit h rfl), if_neg (ne_of_isDigit h rfl), if_neg (ne_of_isDigit h rfl),
      if_pos h]

/-- Digits that are read as a number behind a sign, or without one, are a fragment. -/
theorem fragment_number {depth : Nat} {text : List Char} {number : Number} (negative : Bool)
    (hstart : ∃ c more, text = c :: more ∧ c.isDigit = true)
    (hplain : Plain text)
    (hreads : ∀ rest, Apart rest → numberBody negative (text ++ rest) = .ok (number, rest)) :
    Fragment depth (if negative then '-' :: text else text) (.number number) := by
  obtain ⟨c, more, rfl, hc⟩ := hstart
  have hread : ∀ room rest, Apart rest →
      value room depth ((if negative then '-' :: c :: more else c :: more) ++ rest) =
        .ok (.number number, rest) := by
    intro room rest hrest
    have hvalue := @value_numberBody room depth c (more ++ rest) hc negative
    rw [← List.cons_append, hreads rest hrest] at hvalue
    cases negative <;> exact hvalue
  cases negative with
  | true =>
    refine ⟨⟨'-', _, rfl, rfl, by decide⟩, ?_, fun room rest _ => hread room rest⟩
    exact hplain.cons (by decide)
  | false =>
    exact ⟨⟨c, more, rfl, isBlank_of_isDigit hc, ne_of_isDigit hc rfl⟩, hplain,
      fun room rest _ => hread room rest⟩

/-- **An integer of 64 bits is read back.** -/
theorem fragment_integer (depth : Nat) {i : Int} (hlow : -(UInt64.size / 2 : Nat) ≤ i)
    (hhigh : i < UInt64.size) : Fragment depth (Decimal.integerText i) (.number (.integer i)) := by
  have hstart : ∃ c more, Decimal.digitText i.natAbs = c :: more ∧ c.isDigit = true := by
    obtain ⟨c, more, htext⟩ := List.exists_cons_of_ne_nil (digitText_ne_nil i.natAbs)
    exact ⟨c, more, htext, isDigit_of_mem_digitText (htext ▸ List.mem_cons_self)⟩
  have hplain : Plain (Decimal.digitText i.natAbs) :=
    plain_digits fun c hc => isDigit_of_mem_digitText hc
  unfold Decimal.integerText
  by_cases h : i < 0
  · have hreads : ∀ rest, Apart rest →
        numberBody true (Decimal.digitText i.natAbs ++ rest) = .ok (.integer i, rest) := by
      intro rest hrest
      rw [(numberBody_digitText hrest).2 (by omega) (by omega),
        Int.ofNat_natAbs_of_nonpos (by omega), neg_neg]
    rw [if_pos h]
    exact fragment_number true hstart hplain hreads
  · have hreads : ∀ rest, Apart rest →
        numberBody false (Decimal.digitText i.natAbs ++ rest) = .ok (.integer i, rest) := by
      intro rest hrest
      rw [(numberBody_digitText hrest).1 (by unfold significandBound; omega),
        Int.natAbs_of_nonneg (by omega)]
    rw [if_neg h]
    exact fragment_number false hstart hplain hreads

/-- **A decimal is read as some number**, provided that no power of ten up to its bound is too
large. -/
theorem fragment_real (depth : Nat) {bound : Int} {text : List Char} (h : Unsigned bound text)
    (hscaled : ∀ significand exponent, significand < significandBound → exponent ≤ bound →
      (Decimal.scaled significand exponent).isSome = true) (negative : Bool) :
    ∃ x, Fragment depth (if negative then '-' :: text else text) (.number (.real x)) := by
  obtain ⟨hstarts, hplain, significand, exponent, hs, hx, hreads⟩ := h
  obtain ⟨x, hvalue⟩ := Option.isSome_iff_exists.mp (hscaled significand exponent hs hx)
  refine ⟨if negative then -x else x,
    fragment_number negative hstarts hplain fun rest hrest => ?_⟩
  rw [hreads negative rest hrest, real, hvalue]
  rfl

/-! ## Items and the commas between them -/

/-- Items behind a first one, a comma in front of each. -/
def further (others : List (List Char)) : List Char := others.flatMap (',' :: ·)

theorem intercalate_cons (first : List Char) (others : List (List Char)) :
    List.intercalate [','] (first :: others) = first ++ further others := by
  induction others generalizing first with
  | nil => rw [List.intercalate_singleton, further, List.flatMap_nil, List.append_nil]
  | cons second others ih =>
    rw [List.intercalate_cons_cons, ih, List.append_assoc, List.singleton_append]
    rfl

theorem further_cons (second : List Char) (others : List (List Char)) (rest : List Char) :
    further (second :: others) ++ rest = ',' :: (second ++ (further others ++ rest)) := by
  rw [further, List.flatMap_cons, List.append_assoc]
  rfl

theorem length_lt_further {others : List (List Char)} {text : List Char} (h : text ∈ others) :
    text.length < (further others).length := by
  obtain ⟨before, behind, rfl⟩ := List.append_of_mem h
  rw [further, List.flatMap_append, List.flatMap_cons, List.length_append, List.length_append,
    List.length_cons]
  omega

theorem count_le_further (others : List (List Char)) :
    others.length ≤ (further others).length := by
  induction others with
  | nil => exact Nat.le_refl 0
  | cons second others ih =>
    rw [further, List.flatMap_cons, List.length_append, List.length_cons, List.length_cons]
    have hle : others.length ≤ (others.flatMap (',' :: ·)).length := ih
    omega

theorem plain_items {texts : List (List Char)} (h : ∀ text ∈ texts, Plain text) :
    Plain (List.intercalate [','] texts) := by
  cases texts with
  | nil => exact plain_nil
  | cons first others =>
    obtain ⟨hfirst, hothers⟩ := List.forall_mem_cons.mp h
    rw [intercalate_cons]
    refine hfirst.append fun c hc => ?_
    obtain ⟨text, hmem, hc⟩ := List.mem_flatMap.mp hc
    exact (hothers text hmem).cons (c := ',') (by decide) c hc

/-! ## Lists -/

/-- The elements of a list are read one after the other. -/
theorem elements_further {depth room : Nat} {first : List Char} {v : Json}
    {others : List (List Char)} {values : List Json} (hfirst : Fragment depth first v)
    (hothers : List.Forall₂ (Fragment depth) others values) (hfits : first.length < room)
    (hroom : ∀ text ∈ others, text.length < room) {steps : Nat} (hsteps : others.length < steps)
    (done : List Json) (rest : List Char) :
    elements (value room depth) steps done (first ++ (further others ++ ']' :: rest)) =
      .ok (done.reverse ++ v :: values, rest) := by
  induction hothers generalizing first v steps done with
  | nil =>
    obtain ⟨steps, rfl⟩ : ∃ k, steps = k + 1 := ⟨steps - 1, by omega⟩
    have hread := hfirst.reads room (']' :: rest) hfits (apart_cons rest (by decide))
    -- the bracket ends the loop
    show elements _ _ _ (first ++ ']' :: rest) = _
    rw [elements, hread]
    simp only [skipBlank_cons rest (c := ']') rfl, if_true, List.reverse_cons]
  | @cons second w others values hsecond hothers ih =>
    obtain ⟨steps, rfl⟩ : ∃ k, steps = k + 1 := ⟨steps - 1, by omega⟩
    obtain ⟨hnextFits, hroom⟩ := List.forall_mem_cons.mp hroom
    obtain ⟨c, more, hopens, hblank, hclose⟩ := hsecond.opens
    have hnext := ih hsecond hnextFits hroom (Nat.lt_of_succ_lt_succ hsteps) (v :: done)
    rw [further_cons, elements, hfirst.reads room _ hfits (apart_cons _ (by decide))]
    -- behind the comma no bracket may follow, and no fragment starts with one
    rw [hopens, List.cons_append] at hnext ⊢
    simp only [skipBlank_cons _ (c := ',') rfl, skipBlank_cons _ hblank, if_neg hclose, hnext,
      if_true]
    rw [if_neg (by decide), List.reverse_cons, List.append_assoc, List.singleton_append]

/-- **Fragments between brackets are read as the list of their values.** -/
theorem fragment_array {depth : Nat} {texts : List (List Char)} {values : List Json}
    (h : List.Forall₂ (Fragment depth) texts values) :
    Fragment (depth + 1) (arrayText texts) (.array values) := by
  have hplain : ∀ text ∈ texts, Plain text :=
    ((List.forall₂_and_left texts values).mp (h.imp fun _ _ hread => ⟨hread.plain, hread⟩)).1
  refine ⟨⟨'[', _, rfl, rfl, by decide⟩, ?_, fun room rest hroom _ => ?_⟩
  · exact ((plain_items hplain).cons (by decide)).append (plain_of_all rfl)
  · rw [arrayText, List.cons_append, List.cons_append, List.append_assoc, List.singleton_append,
      value_array]
    rw [arrayText, List.cons_append, List.length_cons, List.length_append,
      List.length_singleton] at hroom
    cases h with
    | nil => rfl
    | @cons first v others values hfirst hothers =>
      rw [intercalate_cons, List.length_append] at hroom
      rw [intercalate_cons, List.append_assoc]
      have hcount := count_le_further others
      have hfits : ∀ text ∈ others, text.length < room := by
        intro text hmem
        have hlt := length_lt_further hmem
        omega
      have hsteps : others.length < room := by omega
      have hread := elements_further hfirst hothers (by omega) hfits hsteps [] rest
      obtain ⟨c, more, hopens, hblank, hclose⟩ := hfirst.opens
      rw [hopens, List.cons_append] at hread ⊢
      rw [arrayBody, skipBlank_cons _ hblank]
      simp only [if_neg hclose, hread]
      rfl

/-- A list of items that are written as fragments. -/
theorem fragment_items {α : Type} {depth : Nat} {text : α → List Char} {value : α → Json}
    (h : ∀ a, Fragment depth (text a) (value a)) (items : List α) :
    Fragment (depth + 1) (arrayText (items.map text)) (.array (items.map value)) := by
  refine fragment_array ?_
  rw [List.forall₂_map_left_iff, List.forall₂_map_right_iff, List.forall₂_same]
  exact fun a _ => h a

/-! ## Objects -/

/-- A name and the text of its value stand for a member. -/
def NamedFragment (depth : Nat) (written : String × List Char) (m : String × Json) : Prop :=
  written.1 = m.1 ∧ Fragment depth written.2 m.2

/-- A member from behind the quote in front of its name. -/
def memberTail (written : String × List Char) : List Char :=
  written.1.toList.flatMap escapeChar ++ '"' :: ':' :: written.2

theorem memberText_eq (written : String × List Char) :
    memberText written.1 written.2 = '"' :: memberTail written := by
  rw [memberText, stringText, memberTail, List.cons_append, List.cons_append, List.append_assoc]
  rfl

theorem member_memberTail {depth room : Nat} {written : String × List Char} {m : String × Json}
    (h : NamedFragment depth written m) (hroom : (memberTail written).length < room)
    {rest : List Char} (hrest : Apart rest) :
    member (value room depth) room (memberTail written ++ rest) = .ok (m, rest) := by
  obtain ⟨key, text⟩ := written
  obtain ⟨name, v⟩ := m
  obtain ⟨rfl, hvalue⟩ := h
  unfold memberTail at hroom ⊢
  dsimp only at hroom hvalue ⊢
  have hlength := length_le_escaped key.toList
  rw [List.length_append, List.length_cons, List.length_cons] at hroom
  rw [List.append_assoc, List.cons_append, List.cons_append, member,
    stringBody_escaped _ (by omega)]
  simp only [colon, skipBlank_cons _ (c := ':') rfl, if_true,
    hvalue.reads room rest (by omega) hrest, List.reverse_nil, List.nil_append,
    String.ofList_toList]
  rfl

/-- The members of an object are read and set one after the other. -/
theorem members_further {depth room : Nat} {first : String × List Char} {m : String × Json}
    {others : List (String × List Char)} {ms : List (String × Json)}
    (hfirst : NamedFragment depth first m)
    (hothers : List.Forall₂ (NamedFragment depth) others ms)
    (hfits : (memberTail first).length < room)
    (hroom : ∀ written ∈ others, (memberTail written).length < room) {steps : Nat}
    (hsteps : others.length < steps) (done : Members) (rest : List Char) :
    members (member (value room depth) room) steps done
        (memberTail first ++
          (further (others.map fun w => memberText w.1 w.2) ++ '\x7d' :: rest)) =
      .ok ((m :: ms).foldl (fun set next => set.insert next.1 next.2) done, rest) := by
  induction hothers generalizing first m steps done with
  | nil =>
    obtain ⟨steps, rfl⟩ : ∃ k, steps = k + 1 := ⟨steps - 1, by omega⟩
    have hread := member_memberTail hfirst hfits
      (apart_cons (c := '\x7d') rest (by decide))
    show members _ _ _ (memberTail first ++ '\x7d' :: rest) = _
    rw [members, hread]
    simp only [skipBlank_cons rest (c := '\x7d') rfl, if_true]
    rfl
  | @cons second w others ms hsecond hothers ih =>
    obtain ⟨steps, rfl⟩ : ∃ k, steps = k + 1 := ⟨steps - 1, by omega⟩
    obtain ⟨hnextFits, hroom⟩ := List.forall_mem_cons.mp hroom
    have hnext := ih hsecond hnextFits hroom (Nat.lt_of_succ_lt_succ hsteps)
      (done.insert m.1 m.2)
    rw [List.map_cons, further_cons, memberText_eq, members,
      member_memberTail hfirst hfits (apart_cons _ (by decide))]
    simp only [skipBlank_cons _ (c := ',') rfl, List.cons_append, skipBlank_cons _ (c := '"') rfl,
      if_true, hnext]
    rw [if_neg (by decide)]
    rfl

/-- **Named fragments between braces are read as members set one after the other.** -/
theorem fragment_object {depth : Nat} {written : List (String × List Char)}
    {ms : List (String × Json)} (h : List.Forall₂ (NamedFragment depth) written ms) :
    Fragment (depth + 1) (objectText written) (.object (Members.ofList ms)) := by
  have hmember : ∀ w ∈ written, Plain (memberText w.1 w.2) := by
    refine ((List.forall₂_and_left written ms).mp (h.imp fun w m hread => ⟨?_, hread⟩)).1
    exact (plain_stringText w.1).append (hread.2.plain.cons (by decide))
  have hplain : ∀ text ∈ written.map fun w => memberText w.1 w.2, Plain text :=
    List.forall_mem_map.mpr hmember
  refine ⟨⟨'\x7b', _, rfl, rfl, by decide⟩, ?_, fun room rest hroom _ => ?_⟩
  · exact ((plain_items hplain).cons (by decide)).append (plain_of_all rfl)
  · rw [objectText, List.cons_append, List.cons_append, List.append_assoc, List.singleton_append,
      value_object]
    rw [objectText, List.cons_append, List.length_cons, List.length_append,
      List.length_singleton] at hroom
    cases h with
    | nil => rfl
    | @cons first m others ms hfirst hothers =>
      rw [List.map_cons, intercalate_cons, memberText_eq, List.length_append,
        List.length_cons] at hroom
      rw [List.map_cons, intercalate_cons, memberText_eq, List.append_assoc, List.cons_append]
      have hcount := count_le_further (others.map fun w => memberText w.1 w.2)
      rw [List.length_map] at hcount
      have hfits : ∀ w ∈ others, (memberTail w).length < room := by
        intro w hw
        have hlt := length_lt_further (List.mem_map_of_mem hw (f := fun w => memberText w.1 w.2))
        rw [memberText_eq, List.length_cons] at hlt
        omega
      have hsteps : others.length < room := by omega
      have hread := members_further hfirst hothers (by omega) hfits hsteps [] rest
      rw [objectBody, skipBlank_cons _ rfl]
      simp only [if_true, hread]
      rw [if_neg (by decide)]
      rfl

end CavityConsole.Json

import CavityConsole.Proofs.Json.Recognition
import CavityConsole.Proofs.Json.Spacing

/-!
# The reader accepts the language of JSON texts

What is read as a value is made of the tokens of that value (`value_sound`), and tokens of a value
are read as it in front of anything that cannot go on them (`value_complete`). Both are inductions
on the containers that may still be opened. The two loops, over elements and over members, are
inductions of their own: on the room when something was read, and on the items when something is to
be read. They know of the reader of their items only that it is sound or complete itself (`Sound`,
`Complete`).

**The law** (`parse_eq_ok_iff`): a text is read as a value exactly when it stands for that value.
-/

namespace CavityConsole.Json

/-! ## Values of one token -/

theorem literal_sound {word cs rest : List Char} (h : literal word cs = .ok rest) :
    cs = word ++ rest := by
  induction word generalizing cs with
  | nil => exact Except.ok.inj h
  | cons w word ih =>
    cases cs with
    | nil => cases h
    | cons c cs =>
      rw [literal] at h
      split at h
      next heq => rw [← heq, ih h, List.cons_append]
      next => cases h

theorem scalar_sound {room : Nat} {c : Char} {cs rest : List Char} {v : Json}
    (h : scalar room c cs = .ok (v, rest)) :
    ∃ token, Scalar [token] v ∧ c :: cs = token.text ++ rest := by
  -- three words are read in one way, and two signs of a number in another
  have hword {word : List Char} (token : Token) {w : Json} (htoken : token.text = c :: word)
      (hscalar : Scalar [token] w)
      (hread : ((literal word cs).map fun rest => (w, rest)) = .ok (v, rest)) :
      ∃ token, Scalar [token] v ∧ c :: cs = token.text ++ rest := by
    obtain ⟨more, hmore, hpair⟩ := map_eq_ok_iff.mp hread
    cases hpair
    exact ⟨token, hscalar, by rw [htoken, literal_sound hmore, List.cons_append]⟩
  have hnumber (negative : Bool) {text : List Char}
      (htext : c :: cs = if negative then '-' :: text else text)
      (hread : ((numberBody negative text).map fun read => (Json.number read.1, read.2)) =
        .ok (v, rest)) : ∃ token, Scalar [token] v ∧ c :: cs = token.text ++ rest := by
    obtain ⟨⟨x, more⟩, hbody, hpair⟩ := map_eq_ok_iff.mp hread
    cases hpair
    obtain ⟨n, hn, rfl, rfl, hvalue⟩ := numeral_of_numberBody hbody
    refine ⟨.number n, .number hn (Numeral.read_eq_ok_iff.mp hvalue), ?_⟩
    rw [htext, Token.text, Numeral.text]
    split <;> rfl
  unfold scalar at h
  split at h
  next hc => exact hword .null (hc ▸ rfl) .null h
  next =>
  split at h
  next hc => exact hword (.boolean true) (hc ▸ rfl) (.boolean true) h
  next =>
  split at h
  next hc => exact hword (.boolean false) (hc ▸ rfl) (.boolean false) h
  next =>
  split at h
  next hc =>
    obtain ⟨⟨s, more⟩, hbody, hpair⟩ := map_eq_ok_iff.mp h
    cases hpair
    obtain ⟨raw, chars, hquoted, rfl, rfl⟩ := quoted_of_stringBody hbody
    refine ⟨.string raw, .string hquoted, ?_⟩
    rw [hc, Token.text, List.cons_append, List.append_assoc, List.singleton_append]
  next =>
  split at h
  next hc => exact hnumber true (by rw [hc]; rfl) h
  next =>
  split at h
  next hc => exact hnumber false rfl h
  next => cases h

theorem Numeral.WellFormed.starts {n : Numeral} (h : n.WellFormed) :
    ∃ c more, n.magnitude = c :: more ∧ c.isDigit = true :=
  h.whole.starts _

/-- A token that is a value starts like none of the punctuation. -/
theorem Scalar.opens {tokens : List Token} {v : Json} (h : Scalar tokens v) :
    ∃ token c cs, tokens = [token] ∧ token.text = c :: cs ∧ isBlank c = false ∧ c ≠ '[' ∧
      c ≠ '\x7b' ∧ c ≠ ']' := by
  cases h with
  | null => exact ⟨_, 'n', _, rfl, rfl, by decide⟩
  | boolean b =>
    cases b with
    | true => exact ⟨_, 't', _, rfl, rfl, by decide⟩
    | false => exact ⟨_, 'f', _, rfl, rfl, by decide⟩
  | string hquoted => exact ⟨_, '"', _, rfl, rfl, by decide⟩
  | @number n _ hn _ =>
    obtain ⟨c, more, hmagnitude, hc⟩ := hn.starts
    by_cases hnegative : n.negative = true
    · exact ⟨_, '-', n.magnitude, rfl, if_pos hnegative, by decide⟩
    · refine ⟨_, c, more, rfl, (if_neg hnegative).trans hmagnitude, isBlank_of_isDigit hc, ?_⟩
      exact ⟨ne_of_isDigit hc rfl, ne_of_isDigit hc rfl, ne_of_isDigit hc rfl⟩

theorem Scalar.value {token : Token} {v : Json} (h : Scalar [token] v) {room depth : Nat}
    (hroom : token.text.length < room) {rest : List Char} (hrest : Apart rest) :
    value room depth (token.text ++ rest) = .ok (v, rest) := by
  cases h with
  | null => exact value_scalar rfl (by decide) (by decide)
  | boolean b => cases b <;> exact value_scalar rfl (by decide) (by decide)
  | string hquoted =>
    rw [Token.text, List.length_cons, List.length_append] at hroom
    rw [Token.text, List.cons_append, List.append_assoc, List.singleton_append,
      value_scalar rfl (by decide) (by decide)]
    show (stringBody room [] _).map _ = _
    rw [stringBody_of_quoted hquoted (by omega), List.reverse_nil, List.nil_append]
    rfl
  | @number n x hn hread =>
    obtain ⟨c, more, hmagnitude, hc⟩ := hn.starts
    have hbody := numberBody_magnitude hn hrest
    rw [Numeral.read_eq_ok_iff.mpr hread, hmagnitude, List.cons_append] at hbody
    have htext : Token.text (.number n) ++ rest =
        if n.negative then '-' :: c :: (more ++ rest) else c :: (more ++ rest) := by
      rw [Token.text, Numeral.text, hmagnitude]
      split <;> rfl
    rw [htext, value_numberBody _ hc, hbody]
    rfl

/-! ## Items -/

/-- What is read as an item is made of its tokens. -/
def Sound (item : List Char → Scan Json) (inner : List Token → Json → Prop) : Prop :=
  ∀ cs v rest, item cs = .ok (v, rest) →
    ∃ tokens text, cs = text ++ rest ∧ Spaced tokens text ∧ inner tokens v

/-- The tokens of an item are read as it, in a text that is shorter than `room`. -/
def Complete (item : List Char → Scan Json) (inner : List Token → Json → Prop) (room : Nat) :
    Prop :=
  ∀ tokens v text rest, inner tokens v → Spaced tokens text → text.length < room → Apart rest →
    item (text ++ rest) = .ok (v, rest)

/-- The tokens of an item do not start like the end of a list. -/
def Opening (inner : List Token → Json → Prop) : Prop :=
  ∀ tokens v, inner tokens v →
    ∃ token c cs others, tokens = token :: others ∧ token.text = c :: cs ∧ isBlank c = false ∧
      c ≠ ']'

section

variable {item : List Char → Scan Json} {inner : List Token → Json → Prop} {room : Nat}

/-! ### Lists -/

theorem elements_sound (h : Sound item inner) {steps : Nat} {done list : List Json}
    {cs rest : List Char} (hread : elements item steps done cs = .ok (list, rest)) :
    ∃ items read text, cs = text ++ rest ∧ Spaced (separated items ++ [.closeList]) text ∧
      List.Forall₂ inner items read ∧ items ≠ [] ∧ list = done.reverse ++ read := by
  induction steps generalizing done cs with
  | zero => cases hread
  | succ steps ih =>
    rw [elements] at hread
    split at hread
    next => cases hread
    next element more hitem =>
    obtain ⟨tokens, text, rfl, hspaced, hinner⟩ := h cs element more hitem
    obtain ⟨blanks, hblanks, hmore⟩ := exists_skipBlank more
    split at hread
    next => cases hread
    next c behind hskip =>
    rw [hskip] at hmore
    split at hread
    next hclose =>
      obtain ⟨rfl, rfl⟩ := Prod.mk.inj (Except.ok.inj hread)
      refine ⟨[tokens], [element], text ++ (blanks ++ [']']), ?_, ?_, ?_, by simp, by simp⟩
      · rw [hmore, hclose, List.append_assoc, List.append_assoc, List.singleton_append]
      · rw [separated_singleton]
        exact hspaced.append (spaced_cons .closeList hblanks .nil)
      · exact .cons hinner .nil
    next =>
    split at hread
    next hcomma =>
      obtain ⟨between, hbetween, hbehind⟩ := exists_skipBlank behind
      split at hread
      next => cases hread
      next d tail hskipped =>
      rw [hskipped] at hbehind
      split at hread
      next => cases hread
      next =>
        -- behind a comma there is another item, so it separates two
        obtain ⟨items, read, others, htail, hothers, hforall, hne, rfl⟩ := ih hread
        obtain ⟨second, items, rfl⟩ := List.exists_cons_of_ne_nil hne
        refine ⟨tokens :: second :: items, element :: read,
          text ++ (blanks ++ (',' :: (between ++ others))), ?_, ?_, .cons hinner hforall,
          by simp, by simp⟩
        · rw [hmore, hcomma, hbehind, htail]
          simp only [List.append_assoc, List.cons_append]
        · rw [separated_cons, List.append_assoc]
          refine hspaced.append (spaced_cons .comma hblanks ?_)
          exact hothers.blanks (by simp) hbetween
    next => cases hread

theorem elements_last (h : Complete item inner room) {tokens : List Token} {v : Json}
    {text blanks rest : List Char} (hinner : inner tokens v) (hspaced : Spaced tokens text)
    (hfits : text.length < room) (hblanks : Blank blanks) (steps : Nat) (done : List Json) :
    elements item (steps + 1) done (text ++ (blanks ++ ']' :: rest)) =
      .ok (done.reverse ++ [v], rest) := by
  have hitem := h tokens v text (blanks ++ ']' :: rest) hinner hspaced hfits
    (apart_blanks hblanks (apart_cons rest (by decide)))
  rw [elements, hitem]
  simp only [skipBlank_append hblanks, skipBlank_cons rest (c := ']') rfl, if_true,
    List.reverse_cons]

/-- Items do not start like the end of a list, whatever white space is in front of them. -/
theorem exists_opening (hopening : Opening inner) {items : List (List Token)} {read : List Json}
    {v : Json} {tokens ends : List Token} {text : List Char}
    (hread : List.Forall₂ inner (tokens :: items) (v :: read))
    (hspaced : Spaced (separated (tokens :: items) ++ ends) text) :
    ∃ blanks c cs, Blank blanks ∧ text = blanks ++ c :: cs ∧ isBlank c = false ∧ c ≠ ']' ∧
      Spaced (separated (tokens :: items) ++ ends) (c :: cs) := by
  obtain ⟨hfirst, -⟩ := List.forall₂_cons.mp hread
  obtain ⟨token, c, cs, others, rfl, htoken, hblank, hclose⟩ := hopening _ _ hfirst
  obtain ⟨behind, hseparated⟩ := exists_separated token others items
  rw [hseparated] at hspaced ⊢
  obtain ⟨blanks, more, hblanks, rfl, hmore⟩ := hspaced.first
  have hhere := spaced_token token hmore
  rw [htoken, List.cons_append] at hhere ⊢
  exact ⟨blanks, c, _, hblanks, rfl, hblank, hclose, hhere⟩

theorem elements_complete (h : Complete item inner room) (hopening : Opening inner)
    {items : List (List Token)} {read : List Json} (hread : List.Forall₂ inner items read)
    (hne : items ≠ []) {text : List Char} (hspaced : Spaced (separated items ++ [.closeList]) text)
    (hroom : text.length < room) {steps : Nat} (hsteps : text.length < steps) (done : List Json)
    (rest : List Char) :
    elements item steps done (text ++ rest) = .ok (done.reverse ++ read, rest) := by
  induction hread generalizing text steps done with
  | nil => exact absurd rfl hne
  | @cons tokens v items read hinner hothers ih =>
    obtain ⟨steps, rfl⟩ : ∃ k, steps = k + 1 := ⟨steps - 1, by omega⟩
    cases hothers with
    | nil =>
      rw [separated_singleton] at hspaced
      obtain ⟨front, back, rfl, hfront, hback⟩ := hspaced.split
      obtain ⟨blanks, hblanks, rfl⟩ := hback.single
      rw [List.length_append] at hroom
      rw [List.append_assoc, List.append_assoc]
      exact elements_last h hinner hfront (by omega) hblanks steps done
    | @cons second w items read hsecond hothers =>
      rw [separated_cons, List.append_assoc] at hspaced
      obtain ⟨front, back, rfl, hfront, hback⟩ := hspaced.split
      obtain ⟨blanks, more, hblanks, rfl, hmore⟩ := hback.first
      -- behind the comma no bracket may follow, and no item starts with one
      obtain ⟨between, c, cs, hbetween, rfl, hblank, hclose, hopens⟩ :=
        exists_opening hopening (.cons hsecond hothers) hmore
      simp only [List.length_append, List.length_cons] at hroom hsteps
      have hcomma : Token.comma.text.length = 1 := rfl
      have hshort : (c :: cs).length < room ∧ (c :: cs).length < steps := by
        rw [List.length_cons]
        omega
      have hnext := ih (by simp) hopens hshort.1 hshort.2 (v :: done)
      have hitem := h tokens v front (blanks ++ ',' :: (between ++ (c :: cs ++ rest))) hinner
        hfront (by omega) (apart_blanks hblanks (apart_cons _ (by decide)))
      have htext : front ++ (blanks ++ (Token.comma.text ++ (between ++ c :: cs))) ++ rest =
          front ++ (blanks ++ ',' :: (between ++ (c :: cs ++ rest))) := by
        simp only [Token.text, List.append_assoc, List.cons_append, List.nil_append]
      rw [htext, elements, hitem]
      simp only [skipBlank_append hblanks, skipBlank_append hbetween,
        skipBlank_cons _ (c := ',') rfl, List.cons_append, skipBlank_cons _ hblank, if_true,
        if_neg hclose]
      rw [List.cons_append] at hnext
      rw [if_neg (by decide), hnext, List.reverse_cons, List.append_assoc,
        List.singleton_append]

/-! ### Objects -/

theorem member_sound (h : Sound item inner) {cs rest : List Char} {m : String × Json}
    (hread : member item room cs = .ok (m, rest)) :
    ∃ (entry : Entry) (text : List Char), '"' :: cs = text ++ rest ∧ Spaced entry.tokens text ∧
      EntryOf inner entry m := by
  unfold member at hread
  split at hread
  next => cases hread
  next name more hname =>
  obtain ⟨raw, chars, hquoted, rfl, rfl⟩ := quoted_of_stringBody hname
  obtain ⟨blanks, hblanks, hmore⟩ := exists_skipBlank more
  rw [colon] at hread
  split at hread
  next => cases hread
  next behind hcolon =>
  split at hcolon
  next => cases hcolon
  next c tail hskip =>
  split at hcolon
  next hc =>
    obtain rfl := Except.ok.inj hcolon
    obtain ⟨⟨v, _⟩, hitem, hpair⟩ := map_eq_ok_iff.mp hread
    cases hpair
    obtain ⟨tokens, text, rfl, hspaced, hinner⟩ := h tail v rest hitem
    refine ⟨(raw, tokens), _, ?_, spaced_token (.string raw) (spaced_cons .colon hblanks hspaced),
      ⟨chars, hquoted, rfl⟩, hinner⟩
    rw [hmore, hskip, hc]
    simp only [Token.text, List.append_assoc, List.cons_append, List.nil_append]
  next => cases hcolon

theorem members_sound (h : Sound item inner) {steps : Nat} {done result : Members}
    {cs rest : List Char} (hread : members (member item room) steps done cs = .ok (result, rest)) :
    ∃ (entries : List Entry) (written : List (String × Json)) (text : List Char),
      '"' :: cs = text ++ rest ∧
      Spaced (separated (entries.map Entry.tokens) ++ [.closeObject]) text ∧
      List.Forall₂ (EntryOf inner) entries written ∧ entries ≠ [] ∧
      result = written.foldl (fun set m => set.insert m.1 m.2) done := by
  induction steps generalizing done cs with
  | zero => cases hread
  | succ steps ih =>
    rw [members] at hread
    split at hread
    next => cases hread
    next name v more hmember =>
    obtain ⟨entry, text, htext, hspaced, hentry⟩ := member_sound h hmember
    obtain ⟨blanks, hblanks, hmore⟩ := exists_skipBlank more
    split at hread
    next => cases hread
    next c behind hskip =>
    rw [hskip] at hmore
    split at hread
    next hclose =>
      obtain ⟨rfl, rfl⟩ := Prod.mk.inj (Except.ok.inj hread)
      refine ⟨[entry], [(name, v)], text ++ (blanks ++ ['\x7d']), ?_, ?_, ?_, by simp, rfl⟩
      · rw [htext, hmore, hclose, List.append_assoc, List.append_assoc, List.singleton_append]
      · rw [List.map_singleton, separated_singleton]
        exact hspaced.append (spaced_cons .closeObject hblanks .nil)
      · exact .cons hentry .nil
    next =>
    split at hread
    next hcomma =>
      obtain ⟨between, hbetween, hbehind⟩ := exists_skipBlank behind
      split at hread
      next => cases hread
      next d tail hskipped =>
      rw [hskipped] at hbehind
      split at hread
      next hquote =>
        obtain ⟨entries, written, others, htail, hothers, hforall, hne, rfl⟩ := ih hread
        obtain ⟨second, entries, rfl⟩ := List.exists_cons_of_ne_nil hne
        refine ⟨entry :: second :: entries, (name, v) :: written,
          text ++ (blanks ++ (',' :: (between ++ others))), ?_, ?_, .cons hentry hforall,
          by simp, rfl⟩
        · rw [htext, hmore, hcomma, hbehind, hquote, htail]
          simp only [List.append_assoc, List.cons_append]
        · rw [List.map_cons, List.map_cons, separated_cons, List.append_assoc]
          refine hspaced.append (spaced_cons .comma hblanks ?_)
          exact hothers.blanks (by simp) hbetween
      next => split at hread <;> cases hread
    next => cases hread

/-- The tokens of a member are read as it, from behind the quote of its key. -/
theorem member_complete (h : Complete item inner room) {entry : Entry} {m : String × Json}
    (hentry : EntryOf inner entry m) {cs : List Char} (hspaced : Spaced entry.tokens ('"' :: cs))
    (hroom : cs.length < room) {rest : List Char} (hrest : Apart rest) :
    member item room (cs ++ rest) = .ok (m, rest) := by
  obtain ⟨⟨chars, hquoted, hname⟩, hinner⟩ := hentry
  obtain ⟨more, hmore, hbehind⟩ := hspaced.behind rfl
  obtain ⟨blanks, text, hblanks, rfl, htext⟩ := hbehind.first
  simp only [Token.text, List.cons_append, List.append_assoc, List.nil_append] at hmore
  obtain rfl := (List.cons_eq_cons.mp hmore).2
  simp only [List.length_append, List.length_cons] at hroom
  have hitem := h entry.2 m.2 text rest hinner htext (by omega) hrest
  rw [List.append_assoc, List.cons_append, member, stringBody_of_quoted hquoted (by omega)]
  simp only [colon, List.append_assoc, skipBlank_append hblanks, List.cons_append,
    skipBlank_cons _ (c := ':') rfl, if_true, hitem, List.reverse_nil, List.nil_append]
  rw [← hname]
  rfl

/-- Entries start with a quote, whatever white space is in front of them. -/
theorem exists_quote (entry : Entry) (entries : List Entry) {ends : List Token} {text : List Char}
    (h : Spaced (separated ((entry :: entries).map Entry.tokens) ++ ends) text) :
    ∃ blanks cs, Blank blanks ∧ text = blanks ++ '"' :: cs ∧
      Spaced (separated ((entry :: entries).map Entry.tokens) ++ ends) ('"' :: cs) := by
  obtain ⟨behind, hseparated⟩ := exists_separated (.string entry.1) (.colon :: entry.2)
    (entries.map Entry.tokens)
  rw [List.map_cons, Entry.tokens, hseparated] at h ⊢
  obtain ⟨blanks, more, hblanks, rfl, hmore⟩ := h.first
  exact ⟨blanks, _, hblanks, rfl, spaced_token (.string entry.1) hmore⟩

/-- A member and what is behind it, from behind the quote of its key. -/
theorem exists_entry {entry : Entry} {tokens : List Token} {cs : List Char}
    (h : Spaced (entry.tokens ++ tokens) ('"' :: cs)) :
    ∃ front back, cs = front ++ back ∧ Spaced entry.tokens ('"' :: front) ∧
      Spaced tokens back := by
  obtain ⟨more, htext, hmore⟩ := Spaced.behind h rfl
  obtain ⟨front, back, rfl, hfront, hback⟩ := Spaced.split hmore
  have hentry := spaced_token (.string entry.1) hfront
  rw [Token.text, List.cons_append, List.append_assoc] at hentry
  rw [Token.text, List.cons_append, List.append_assoc] at htext
  refine ⟨_, back, (List.cons_eq_cons.mp htext).2.trans ?_, hentry, hback⟩
  simp only [List.append_assoc]

/-- The tokens of entries are read as the members of an object, from behind the quote of the first
key. -/
theorem members_complete (h : Complete item inner room) {entries : List Entry}
    {written : List (String × Json)} (hread : List.Forall₂ (EntryOf inner) entries written)
    (hne : entries ≠ []) {cs : List Char}
    (hspaced : Spaced (separated (entries.map Entry.tokens) ++ [.closeObject]) ('"' :: cs))
    (hroom : cs.length < room) {steps : Nat} (hsteps : cs.length < steps) (done : Members)
    (rest : List Char) :
    members (member item room) steps done (cs ++ rest) =
      .ok (written.foldl (fun set m => set.insert m.1 m.2) done, rest) := by
  induction hread generalizing cs steps done with
  | nil => exact absurd rfl hne
  | @cons entry m entries written hentry hothers ih =>
    obtain ⟨steps, rfl⟩ : ∃ k, steps = k + 1 := ⟨steps - 1, by omega⟩
    cases hothers with
    | nil =>
      rw [List.map_singleton, separated_singleton] at hspaced
      obtain ⟨front, back, rfl, hfront, hback⟩ := exists_entry hspaced
      obtain ⟨blanks, hblanks, rfl⟩ := hback.single
      rw [List.length_append] at hroom
      have hmember := member_complete h hentry hfront (by omega)
        (apart_blanks hblanks (apart_cons (c := '\x7d') rest (by decide)))
      have htext : front ++ (blanks ++ Token.closeObject.text) ++ rest =
          front ++ (blanks ++ '\x7d' :: rest) := by
        simp only [Token.text, List.append_assoc, List.cons_append, List.nil_append]
      rw [htext, members, hmember]
      simp only [skipBlank_append hblanks, skipBlank_cons rest (c := '\x7d') rfl, if_true]
      rfl
    | @cons second w entries written hsecond hothers =>
      rw [List.map_cons, List.map_cons, separated_cons, List.append_assoc] at hspaced
      obtain ⟨front, back, rfl, hfront, hback⟩ := exists_entry hspaced
      obtain ⟨blanks, more, hblanks, rfl, hmore⟩ := hback.first
      obtain ⟨between, cs, hbetween, rfl, hquote⟩ := exists_quote second entries hmore
      -- room and steps bound the text that is left, and it has become shorter
      simp only [List.length_append, List.length_cons] at hroom hsteps
      have hnext := ih (by simp) hquote (by omega) (show _ < steps by omega)
        (done.insert m.1 m.2)
      have hmember := member_complete h hentry hfront (by omega)
        (apart_blanks hblanks (apart_cons (c := ',') (between ++ '"' :: (cs ++ rest)) (by decide)))
      have htext : front ++ (blanks ++ (Token.comma.text ++ (between ++ '"' :: cs))) ++ rest =
          front ++ (blanks ++ ',' :: (between ++ '"' :: (cs ++ rest))) := by
        simp only [Token.text, List.append_assoc, List.cons_append, List.nil_append]
      rw [htext, members, hmember]
      simp only [skipBlank_append hblanks, skipBlank_append hbetween,
        skipBlank_cons _ (c := ',') rfl, skipBlank_cons _ (c := '"') rfl, if_true, hnext]
      rw [if_neg (by decide)]
      rfl

/-! ### Containers -/

theorem arrayBody_sound (h : Sound item inner) {cs rest : List Char} {v : Json}
    (hread : arrayBody item room cs = .ok (v, rest)) :
    ∃ tokens text, '[' :: cs = text ++ rest ∧ Spaced (.openList :: tokens) text ∧
      Container inner (.openList :: tokens) v := by
  obtain ⟨blanks, hblanks, hcs⟩ := exists_skipBlank cs
  unfold arrayBody at hread
  split at hread
  next => cases hread
  next c behind hskip =>
  rw [hskip] at hcs
  split at hread
  next hclose =>
    obtain ⟨rfl, rfl⟩ := Prod.mk.inj (Except.ok.inj hread)
    refine ⟨_, _, ?_, spaced_token .openList (spaced_cons .closeList hblanks .nil),
      .list (.nil : List.Forall₂ inner [] [])⟩
    rw [hcs, hclose]
    simp only [Token.text, List.append_assoc, List.cons_append, List.nil_append]
  next =>
    obtain ⟨⟨list, _⟩, helements, hpair⟩ := map_eq_ok_iff.mp hread
    cases hpair
    obtain ⟨items, read, text, htext, hspaced, hforall, -, rfl⟩ := elements_sound h helements
    refine ⟨_, _, ?_, spaced_token .openList (hspaced.blanks (by simp) hblanks), .list hforall⟩
    rw [hcs, htext]
    simp only [Token.text, List.append_assoc, List.cons_append, List.nil_append]

theorem objectBody_sound (h : Sound item inner) {cs rest : List Char} {v : Json}
    (hread : objectBody item room cs = .ok (v, rest)) :
    ∃ tokens text, '\x7b' :: cs = text ++ rest ∧ Spaced (.openObject :: tokens) text ∧
      Container inner (.openObject :: tokens) v := by
  obtain ⟨blanks, hblanks, hcs⟩ := exists_skipBlank cs
  unfold objectBody at hread
  split at hread
  next => cases hread
  next c behind hskip =>
  rw [hskip] at hcs
  split at hread
  next hclose =>
    obtain ⟨rfl, rfl⟩ := Prod.mk.inj (Except.ok.inj hread)
    refine ⟨_, _, ?_, spaced_token .openObject (spaced_cons .closeObject hblanks .nil),
      .object (.nil : List.Forall₂ (EntryOf inner) [] []) (Members.settles_ofList [])⟩
    rw [hcs, hclose]
    simp only [Token.text, List.append_assoc, List.cons_append, List.nil_append]
  next =>
  split at hread
  next hquote =>
    obtain ⟨⟨done, _⟩, hmembers, hpair⟩ := map_eq_ok_iff.mp hread
    cases hpair
    obtain ⟨entries, written, text, htext, hspaced, hforall, -, rfl⟩ := members_sound h hmembers
    refine ⟨_, _, ?_, spaced_token .openObject (hspaced.blanks (by simp) hblanks),
      .object hforall (Members.settles_ofList written)⟩
    rw [hcs, hquote, htext]
    simp only [Token.text, List.append_assoc, List.cons_append, List.nil_append]
  next => cases hread

theorem arrayBody_complete (h : Complete item inner room) (hopening : Opening inner)
    {items : List (List Token)} {read : List Json} (hread : List.Forall₂ inner items read)
    {text : List Char} (hspaced : Spaced (separated items ++ [.closeList]) text)
    (hroom : text.length < room) (rest : List Char) :
    arrayBody item room (text ++ rest) = .ok (.array read, rest) := by
  cases hread with
  | nil =>
    obtain ⟨blanks, hblanks, rfl⟩ := Spaced.single hspaced
    rw [List.append_assoc, arrayBody, skipBlank_append hblanks]
    rfl
  | cons hfirst hothers =>
    obtain ⟨blanks, c, cs, hblanks, rfl, hblank, hclose, hopens⟩ :=
      exists_opening hopening (.cons hfirst hothers) hspaced
    rw [List.length_append] at hroom
    have helements := elements_complete h hopening (.cons hfirst hothers) (by simp) hopens
      (by omega) (show _ < room by omega) [] rest
    rw [List.cons_append] at helements
    rw [List.append_assoc, arrayBody, skipBlank_append hblanks, List.cons_append,
      skipBlank_cons _ hblank]
    simp only [if_neg hclose, helements]
    rfl

theorem objectBody_complete (h : Complete item inner room) {entries : List Entry}
    {written : List (String × Json)} {set : Members}
    (hread : List.Forall₂ (EntryOf inner) entries written) (hsettled : Members.Settles written set)
    {text : List Char}
    (hspaced : Spaced (separated (entries.map Entry.tokens) ++ [.closeObject]) text)
    (hroom : text.length < room) (rest : List Char) :
    objectBody item room (text ++ rest) = .ok (.object set, rest) := by
  obtain rfl : set = Members.ofList written := hsettled.unique (Members.settles_ofList written)
  cases hread with
  | nil =>
    obtain ⟨blanks, hblanks, rfl⟩ := Spaced.single hspaced
    rw [List.append_assoc, objectBody, skipBlank_append hblanks]
    rfl
  | cons hfirst hothers =>
    obtain ⟨blanks, cs, hblanks, rfl, hquote⟩ := exists_quote _ _ hspaced
    rw [List.length_append, List.length_cons] at hroom
    have hmembers := members_complete h (.cons hfirst hothers) (by simp) hquote
      (by omega) (show _ < room by omega) [] rest
    rw [List.append_assoc, objectBody, skipBlank_append hblanks, List.cons_append,
      skipBlank_cons _ rfl]
    simp only [if_true, hmembers]
    rw [if_neg (by decide)]
    rfl

end

/-! ## Values -/

theorem denotes_scalar {tokens : List Token} {v : Json} (h : Scalar tokens v) (depth : Nat) :
    Denotes depth tokens v := by
  cases depth with
  | zero => exact h
  | succ depth => exact .inl h

theorem value_blanks {blanks : List Char} (h : Blank blanks) (room depth : Nat) (cs : List Char) :
    value room depth (blanks ++ cs) = value room depth cs := by
  unfold value
  rw [skipBlank_append h]

/-- **What is read as a value is made of the tokens of that value.** -/
theorem value_sound (room depth : Nat) : Sound (value room depth) (Denotes depth) := by
  have hscalar {depth : Nat} {c : Char} {cs blanks rest : List Char} {v : Json}
      (hblanks : Blank blanks) (h : scalar room c cs = .ok (v, rest)) :
      ∃ tokens text, blanks ++ c :: cs = text ++ rest ∧ Spaced tokens text ∧
        Denotes depth tokens v := by
    obtain ⟨token, hscalar, htext⟩ := scalar_sound h
    refine ⟨_, _, ?_, spaced_cons token hblanks .nil, denotes_scalar hscalar depth⟩
    rw [htext, List.append_nil, List.append_assoc]
  have hcontainer {depth : Nat} {token : Token} {tokens : List Token}
      {blanks cs text rest : List Char} {v : Json} (hblanks : Blank blanks)
      (htext : cs = text ++ rest) (hspaced : Spaced (token :: tokens) text)
      (h : Container (Denotes depth) (token :: tokens) v) :
      ∃ tokens text, blanks ++ cs = text ++ rest ∧ Spaced tokens text ∧
        Denotes (depth + 1) tokens v := by
    refine ⟨token :: tokens, blanks ++ text, ?_, hspaced.blanks (by simp) hblanks, .inr h⟩
    rw [htext, List.append_assoc]
  -- on the containers that may still be opened; with none left a value is one token
  induction depth with
  | zero =>
    intro cs v rest h
    obtain ⟨blanks, hblanks, hcs⟩ := exists_skipBlank cs
    unfold value at h
    split at h
    next => cases h
    next c behind hskip =>
    rw [hcs, hskip]
    split at h
    next => cases h
    next =>
    split at h
    next => cases h
    next => exact hscalar hblanks h
  | succ depth ih =>
    intro cs v rest h
    obtain ⟨blanks, hblanks, hcs⟩ := exists_skipBlank cs
    unfold value at h
    split at h
    next => cases h
    next c behind hskip =>
    rw [hcs, hskip]
    split at h
    next hlist =>
      obtain ⟨tokens, text, htext, hspaced, hcontains⟩ := arrayBody_sound ih h
      exact hcontainer hblanks (hlist ▸ htext) hspaced hcontains
    next =>
    split at h
    next hobject =>
      obtain ⟨tokens, text, htext, hspaced, hcontains⟩ := objectBody_sound ih h
      exact hcontainer hblanks (hobject ▸ htext) hspaced hcontains
    next => exact hscalar hblanks h

theorem opening_denotes (depth : Nat) : Opening (Denotes depth) := by
  have hscalar : Opening Scalar := by
    intro tokens v h
    obtain ⟨token, c, cs, rfl, htext, hblank, -, -, hclose⟩ := h.opens
    exact ⟨token, c, cs, [], rfl, htext, hblank, hclose⟩
  cases depth with
  | zero => exact hscalar
  | succ depth =>
    intro tokens v h
    rcases h with h | h
    · exact hscalar tokens v h
    · cases h with
      | list => exact ⟨.openList, '[', [], _, rfl, rfl, by decide⟩
      | object => exact ⟨.openObject, '\x7b', [], _, rfl, rfl, by decide⟩

/-- **The tokens of a value are read as it.** -/
theorem value_complete (room depth : Nat) : Complete (value room depth) (Denotes depth) room := by
  have hscalar (depth : Nat) : Complete (value room depth) Scalar room := by
    intro tokens v text rest h hspaced hroom hrest
    obtain ⟨token, -, -, rfl, -⟩ := h.opens
    obtain ⟨blanks, hblanks, rfl⟩ := hspaced.single
    rw [List.length_append] at hroom
    rw [List.append_assoc, value_blanks hblanks]
    exact h.value (by omega) hrest
  induction depth with
  | zero => exact hscalar 0
  | succ depth ih =>
    intro tokens v text rest h hspaced hroom hrest
    rcases h with h | h
    · exact hscalar _ tokens v text rest h hspaced hroom hrest
    · cases h with
      | list hread =>
        obtain ⟨blanks, more, hblanks, rfl, hmore⟩ := hspaced.first
        simp only [List.length_append] at hroom
        rw [List.append_assoc, List.append_assoc, value_blanks hblanks]
        exact (value_array room depth (more ++ rest)).trans
          (arrayBody_complete ih (opening_denotes depth) hread hmore (by omega) rest)
      | object hread hsettled =>
        obtain ⟨blanks, more, hblanks, rfl, hmore⟩ := hspaced.first
        simp only [List.length_append] at hroom
        rw [List.append_assoc, List.append_assoc, value_blanks hblanks]
        exact (value_object room depth (more ++ rest)).trans
          (objectBody_complete ih hread hsettled hmore (by omega) rest)

/-! ## Texts -/

/-- **A text is read as a value exactly when it stands for that value.** -/
theorem parse_eq_ok_iff (text : String) (v : Json) :
    parse text = .ok v ↔ StandsFor text.toList v := by
  constructor
  · intro h
    rw [parse] at h
    split at h
    next => cases h
    next result rest hvalue =>
      split at h
      next hskip =>
        obtain rfl := Except.ok.inj h
        obtain ⟨tokens, front, htext, hspaced, hdenotes⟩ := value_sound _ _ _ _ _ hvalue
        exact ⟨tokens, ⟨front, rest, htext, hspaced, blank_of_skipBlank hskip⟩, hdenotes⟩
      next => cases h
  · rintro ⟨tokens, ⟨front, back, htext, hspaced, hback⟩, hdenotes⟩
    have hapart : Apart back := by
      have hend := apart_blanks hback apart_nil
      rwa [List.append_nil] at hend
    have hroom : front.length < (front ++ back).length + 1 := by
      rw [List.length_append]
      omega
    have hvalue := value_complete _ maxDepth tokens v front back hdenotes hspaced hroom hapart
    rw [parse, htext]
    simp only [hvalue, skipBlank_of_blank hback]

end CavityConsole.Json

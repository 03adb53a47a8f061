import CavityConsole.Proofs.Json.Fragment
import CavityConsole.Proofs.Json.Grammar
import Mathlib.Data.List.TakeWhile

/-!
# White space between tokens

White space in front of a token is skipped and nothing else is. A text of tokens comes apart where
the tokens do (`Spaced.split`, `Spaced.first`), and texts of tokens go together (`Spaced.append`).
-/

namespace CavityConsole.Json

/-! ## White space -/

theorem skipBlank_append {blanks : List Char} (h : Blank blanks) (text : List Char) :
    skipBlank (blanks ++ text) = skipBlank text :=
  List.dropWhile_append_of_pos h

theorem exists_skipBlank (cs : List Char) : ∃ blanks, Blank blanks ∧ cs = blanks ++ skipBlank cs :=
  ⟨cs.takeWhile isBlank, List.all_eq_true.mp List.all_takeWhile,
    List.takeWhile_append_dropWhile.symm⟩

theorem blank_of_skipBlank {cs : List Char} (h : skipBlank cs = []) : Blank cs :=
  List.dropWhile_eq_nil_iff.1 h

theorem skipBlank_of_blank {cs : List Char} (h : Blank cs) : skipBlank cs = [] :=
  List.dropWhile_eq_nil_iff.2 h

/-- White space goes on nothing. -/
theorem apart_blanks {blanks text : List Char} (h : Blank blanks) (htext : Apart text) :
    Apart (blanks ++ text) := by
  cases blanks with
  | nil => exact htext
  | cons c blanks =>
    have hc := h c List.mem_cons_self
    simp only [isBlank, Bool.or_eq_true, beq_iff_eq] at hc
    rcases hc with ((rfl | rfl) | rfl) | rfl <;> exact apart_cons _ (by decide)

/-! ## Spaced tokens -/

theorem spaced_cons {blanks text : List Char} (token : Token) {tokens : List Token}
    (h : Blank blanks) (hrest : Spaced tokens text) :
    Spaced (token :: tokens) (blanks ++ (token.text ++ text)) :=
  .cons h hrest

/-- A token where it stands. -/
theorem spaced_token (token : Token) {tokens : List Token} {text : List Char}
    (h : Spaced tokens text) : Spaced (token :: tokens) (token.text ++ text) :=
  spaced_cons token (List.forall_mem_nil _) h

/-- White space in front of the first token. -/
theorem Spaced.blanks {tokens : List Token} {text blanks : List Char} (h : Spaced tokens text)
    (hne : tokens ≠ []) (hblanks : Blank blanks) : Spaced tokens (blanks ++ text) := by
  cases h with
  | nil => exact absurd rfl hne
  | cons hfirst hrest =>
    rw [← List.append_assoc]
    exact .cons (List.forall_mem_append.mpr ⟨hblanks, hfirst⟩) hrest

theorem Spaced.append {tokens others : List Token} {text more : List Char}
    (h : Spaced tokens text) (hmore : Spaced others more) :
    Spaced (tokens ++ others) (text ++ more) := by
  induction h with
  | nil => exact hmore
  | cons hblank _ ih =>
    rw [List.append_assoc, List.append_assoc]
    exact .cons hblank ih

/-- The text of some tokens and the text of those behind them. -/
theorem Spaced.split {tokens others : List Token} {text : List Char}
    (h : Spaced (tokens ++ others) text) :
    ∃ front back, text = front ++ back ∧ Spaced tokens front ∧ Spaced others back := by
  induction tokens generalizing text with
  | nil => exact ⟨[], text, rfl, .nil, h⟩
  | cons token tokens ih =>
    cases h with
    | @cons blanks _ _ rest hblank hrest =>
      obtain ⟨front, back, rfl, hfront, hback⟩ := ih hrest
      refine ⟨blanks ++ (token.text ++ front), back, ?_, .cons hblank hfront, hback⟩
      simp only [List.append_assoc]

/-- The first token, the white space in front of it, and what is behind it. -/
theorem Spaced.first {token : Token} {tokens : List Token} {text : List Char}
    (h : Spaced (token :: tokens) text) :
    ∃ blanks more, Blank blanks ∧ text = blanks ++ (token.text ++ more) ∧ Spaced tokens more := by
  cases h with
  | cons hblank hrest => exact ⟨_, _, hblank, rfl, hrest⟩

/-- Where no white space stands in front of the first token. -/
theorem Spaced.behind {token : Token} {tokens : List Token} {c : Char} {cs : List Char}
    (h : Spaced (token :: tokens) (c :: cs)) (hc : isBlank c = false) :
    ∃ more, c :: cs = token.text ++ more ∧ Spaced tokens more := by
  obtain ⟨blanks, more, hblank, htext, hmore⟩ := h.first
  cases blanks with
  | nil => exact ⟨more, htext, hmore⟩
  | cons b blanks =>
    obtain ⟨rfl, -⟩ := List.cons_eq_cons.mp htext
    exact absurd (hblank c List.mem_cons_self) (Bool.eq_false_iff.mp hc)

theorem Spaced.single {token : Token} {text : List Char} (h : Spaced [token] text) :
    ∃ blanks, Blank blanks ∧ text = blanks ++ token.text := by
  obtain ⟨blanks, more, hblank, rfl, hmore⟩ := h.first
  cases hmore
  exact ⟨blanks, hblank, by rw [List.append_nil]⟩

theorem separated_singleton (item : List Token) : separated [item] = item :=
  List.intercalate_singleton

theorem separated_cons (first second : List Token) (others : List (List Token)) :
    separated (first :: second :: others) = first ++ .comma :: separated (second :: others) := by
  rw [separated, List.intercalate_cons_cons, List.append_assoc, List.singleton_append]
  rfl

/-- The first token of items is the first one of the first item. -/
theorem exists_separated (token : Token) (tokens : List Token) (items : List (List Token)) :
    ∃ others, separated ((token :: tokens) :: items) = token :: others := by
  cases items with
  | nil => exact ⟨tokens, separated_singleton _⟩
  | cons second items => exact ⟨_, separated_cons _ _ _⟩

end CavityConsole.Json

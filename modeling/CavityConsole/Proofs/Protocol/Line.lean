import CavityConsole.Dispatch.Dispatcher
import CavityConsole.Proofs.Json.Arrangement
import CavityConsole.Proofs.Json.Language

/-!
# Which lines are documents

A line is a document exactly when it stands for an object. When it stands for another value, it is
refused with the type of that value, and when it stands for nothing, it is malformed
(`ofLine_language`). The grammar says what a line stands for; the lemmas here only sort the outcomes
of the reader.
-/

namespace CavityConsole.Document

open Json

variable {line : String}

theorem ofLine_eq_ok_iff {doc : Document} :
    ofLine line = .ok doc ↔ StandsFor line.toList (.object doc) := by
  rw [← parse_eq_ok_iff, ofLine]
  cases parse line with
  | error fault => simp
  | ok v => cases v <;> simp

theorem ofLine_eq_notAnObject_iff {name : String} :
    ofLine line = .error (.notAnObject name) ↔
      ∃ v, StandsFor line.toList v ∧ (∀ members, v ≠ .object members) ∧ v.typeName = name := by
  simp only [← parse_eq_ok_iff, ofLine]
  cases parse line with
  | error fault => simp
  | ok v => cases v <;> simp

theorem ofLine_eq_malformed_iff :
    (∃ fault, ofLine line = .error (.malformed fault)) ↔ ∀ v, ¬ StandsFor line.toList v := by
  simp only [← parse_eq_ok_iff, ofLine]
  cases parse line with
  | error fault => simp
  | ok v => cases v <;> simp

/-- What a document holds for a key is what the line says last. -/
theorem exists_entries {doc : Document} (h : StandsFor line.toList (.object doc)) :
    ∃ entries written, LaidOut (objectTokens entries) line.toList ∧
      List.Forall₂ (EntryOf (Denotes (maxDepth - 1))) entries written ∧
      ∀ key, Members.get? doc key = Members.lastOf written key := by
  obtain ⟨tokens, hlaid, hscalar | hcontainer⟩ := h
  · cases hscalar
  · cases hcontainer with
    | object hread hsettled => exact ⟨_, _, hlaid, hread, hsettled.last⟩

theorem denotes_integer_iff {n : Numeral} (hn : n.WellFormed) (h : n.IsInteger) (depth : Nat)
    (v : Json) : Denotes depth [.number n] v ↔ v = .number (.integer n.integer) := by
  constructor
  · intro hv
    have hscalar : Scalar [.number n] v := by
      cases depth with
      | zero => exact hv
      | succ depth =>
        rcases hv with hv | hv
        · exact hv
        · generalize htokens : [Token.number n] = tokens at hv
          cases hv <;> cases htokens
    cases hscalar with
    | number _ hread =>
      cases hread with
      | integer => rfl
      | real hnot => exact absurd h hnot
  · rintro rfl
    exact denotes_scalar (.number hn (.integer h)) depth

/-- Two lines are spellings of one message: between the tokens there may be other white space, and
the members of an object may come in another order as long as those of one key stay in theirs. -/
def SameMessage (line other : String) : Prop :=
  ∃ tokens others, LaidOut tokens line.toList ∧ LaidOut others other.toList ∧
    Rearranged maxDepth tokens others

/-- Spellings of one message are one document. -/
theorem SameMessage.ofLine {other : String} (h : SameMessage line other) :
    Document.ofLine other = Document.ofLine line := by
  obtain ⟨tokens, others, hline, hother, harranged⟩ := h
  obtain ⟨v, htokens, hothers⟩ := harranged.denotes
  rw [Document.ofLine, (parse_eq_ok_iff _ v).mpr ⟨others, hother, hothers⟩, Document.ofLine,
    (parse_eq_ok_iff _ v).mpr ⟨tokens, hline, htokens⟩]

/-- Other white space makes another spelling of a message. -/
theorem sameMessage_of_laidOut {other : String} {tokens : List Token} {v : Json}
    (h : Denotes maxDepth tokens v) (hline : LaidOut tokens line.toList)
    (hother : LaidOut tokens other.toList) : SameMessage line other :=
  ⟨tokens, tokens, hline, hother, h.rearranged⟩

theorem denotes_x {n : Numeral} {x : Number} (hn : n.WellFormed) (h : n.Reads x) :
    Denotes maxDepth (objectTokens [(['x'], [.number n])])
      (.object (Members.ofList [("x", .number x)])) := by
  have hx : Quoted ['x'] ['x'] := .plain (by decide) (by decide) (by decide) .nil
  have hentry : EntryOf (Denotes 126) (['x'], [.number n]) ("x", .number x) :=
    ⟨⟨_, hx, rfl⟩, denotes_scalar (.number hn h) _⟩
  exact .inr (.object (.cons hentry .nil) (Members.settles_ofList _))

theorem spaced_x (n : Numeral) :
    Spaced (objectTokens [(['x'], [.number n])])
      (['\x7b', '"', 'x', '"', ':'] ++ (n.text ++ ['\x7d'])) :=
  spaced_token .openObject (spaced_token (.string ['x']) (spaced_token .colon
    (spaced_token (.number n) (spaced_token .closeObject .nil))))

/-- **The lines that are documents.** A line is a document exactly when it stands for an object, is
refused with a type exactly when it stands for a value of that other type, and is malformed exactly
when it stands for nothing. A document holds what the line says last for a key, and so do the
objects within it; an integer of 64 bits stands for itself wherever it stands. Spellings of one
message are one document and are dispatched alike. -/
theorem ofLine_language (line : String) :
    (∀ doc, ofLine line = .ok doc ↔ StandsFor line.toList (.object doc)) ∧
      (∀ name, ofLine line = .error (.notAnObject name) ↔
        ∃ v, StandsFor line.toList v ∧ (∀ members, v ≠ .object members) ∧ v.typeName = name) ∧
      ((∃ fault, ofLine line = .error (.malformed fault)) ↔ ∀ v, ¬ StandsFor line.toList v) ∧
      (∀ doc, ofLine line = .ok doc →
        ∃ entries written, LaidOut (objectTokens entries) line.toList ∧
          List.Forall₂ (EntryOf (Denotes (maxDepth - 1))) entries written ∧
          ∀ key, Members.get? doc key = Members.lastOf written key) ∧
      (∀ n : Numeral, n.WellFormed → n.IsInteger → ∀ depth v,
        Denotes depth [.number n] v ↔ v = .number (.integer n.integer)) ∧
      ∀ other, SameMessage line other →
        ofLine other = ofLine line ∧
          ∀ (ν ρ σ : Type) (dispatcher : Dispatcher ν ρ) (note : σ → LogEntry → σ)
            (hear : σ → Delivery ν ρ → Except σ σ) (state : σ),
            dispatcher.dispatchLine note hear state other =
              dispatcher.dispatchLine note hear state line := by
  refine ⟨fun doc => ofLine_eq_ok_iff, fun name => ofLine_eq_notAnObject_iff,
    ofLine_eq_malformed_iff, fun doc h => exists_entries (ofLine_eq_ok_iff.mp h),
    fun n hn h depth v => denotes_integer_iff hn h depth v, fun other h => ?_⟩
  refine ⟨h.ofLine, fun ν ρ σ dispatcher note hear state => ?_⟩
  rw [Dispatcher.dispatchLine, Dispatcher.dispatchLine, h.ofLine]

def seven : Numeral where
  negative := false
  whole := ['7']
  fraction := none
  exponent := none

theorem ofLine_language_seven :
    ofLine "\x7b\"x\":7\x7d" = .ok [("x", .number (.integer 7))] ∧
      ofLine " \x7b\"x\" :7\x7d\t" = ofLine "\x7b\"x\":7\x7d" := by
  obtain ⟨hok, -, -, -, -, hsame⟩ := ofLine_language "\x7b\"x\":7\x7d"
  have hseven : Denotes maxDepth (objectTokens [(['x'], [.number seven])])
      (.object [("x", .number (.integer 7))]) :=
    denotes_x
      ⟨⟨by simp [seven], by simp [seven], by simp [seven]⟩, by simp [seven], by simp [seven]⟩
      (.integer ⟨rfl, rfl, by decide, by decide, fun h => by cases h⟩)
  have hline : LaidOut (objectTokens [(['x'], [.number seven])]) "\x7b\"x\":7\x7d".toList :=
    ⟨_, [], rfl, spaced_x seven, List.forall_mem_nil _⟩
  have hblank : Blank [' '] := List.forall_mem_singleton.mpr rfl
  have htab : Blank ['\t'] := List.forall_mem_singleton.mpr rfl
  have hspaced := spaced_cons .openObject hblank (spaced_token (.string ['x'])
    (spaced_cons .colon hblank (spaced_token (.number seven) (spaced_token .closeObject .nil))))
  exact ⟨(hok _).mpr ⟨_, hline, hseven⟩,
    (hsame _ (sameMessage_of_laidOut hseven hline ⟨_, ['\t'], rfl, hspaced, htab⟩)).1⟩

def minusZero : Numeral where
  negative := true
  whole := ['0']
  fraction := none
  exponent := none

/-- A zero behind a minus sign is no integer: it is the real number that keeps the sign. -/
theorem minusZero_reads : minusZero.Reads (.real (.zero true)) := by
  have hscaled : Decimal.scaled minusZero.scientific.1 minusZero.scientific.2 =
      some (.zero false) := by
    decide +kernel
  exact .real (fun h => h.sign rfl rfl) hscaled

/-- Whether a line is refused as malformed. -/
def isMalformed (line : String) : Bool :=
  match ofLine line with
  | .error (.malformed _) => true
  | _ => false

theorem exists_fault_of_isMalformed (h : isMalformed line = true) :
    ∃ fault, ofLine line = .error (.malformed fault) := by
  unfold isMalformed at h
  split at h
  next fault hline => exact ⟨fault, hline⟩
  next => cases h

/-- Neither does every integer of 64 bits stay an integer, nor is every number read that rounds to a
real number: a zero behind a minus sign is real, and `1.7976931348623158e308` is refused. It stands
a little above the largest real number and rounds to it, but its seventeen digits times `10 ^ 292`
are rounded up to infinity. -/
theorem ofLine_minusZero_and_largest :
    (∃ doc, ofLine "\x7b\"x\":-0\x7d" = .ok doc ∧
        Members.get? doc "x" = some (.number (.real (.zero true)))) ∧
      (∃ fault, ofLine "\x7b\"x\":1.7976931348623158e308\x7d" = .error (.malformed fault)) ∧
      (Binary.ofDecimal false 17976931348623158 292 : Double).isFinite = true := by
  refine ⟨?_, exists_fault_of_isMalformed (by decide +kernel), by decide +kernel⟩
  have hzero := denotes_x (n := minusZero)
    ⟨wholeDigits_zero, by simp [minusZero], by simp [minusZero]⟩ minusZero_reads
  have hlaidOut : LaidOut _ _ := ⟨_, [], rfl, spaced_x minusZero, List.forall_mem_nil _⟩
  exact ⟨_, ofLine_eq_ok_iff.mpr ⟨_, hlaidOut, hzero⟩, rfl⟩

end CavityConsole.Document

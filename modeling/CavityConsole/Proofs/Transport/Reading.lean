import CavityConsole.Proofs.Dispatch.Delivery
import CavityConsole.Proofs.Transport.Framing

/-!
# Which lines of a stream are dispatched

A line of a stream is faulty when it exceeds the limit, is not UTF-8 or is no document. Which lines
are faulty can be read off the stream alone, and so can everything that reading it does:
`dispatchable` are the lines that are handed to the listeners, `exitOf` is the end of the reading.

**The law** (`readLines_dispatch`): whatever the pieces in which a stream arrives, reading it is the
reference `readWhole`; and when the listeners return, every line before the first faulty one that is
not blank is dispatched exactly once, in order, and no line behind it.
-/

namespace CavityConsole.Transport

/-- The text that a line hands on, if it does. -/
def textOf (limit : Nat) (bytes : List UInt8) : Option String :=
  match Line.ofBytes limit bytes with
  | .text line => some line
  | _ => none

/-- Why a line ends the connection, if it does. -/
def faultOf (limit : Nat) (bytes : List UInt8) : Option TransportError :=
  match Line.ofBytes limit bytes with
  | .fault error => some error
  | .blank => none
  | .text line =>
    match Document.ofLine line with
    | .error error => some (.undecodable error)
    | .ok _ => none

/-- The lines that are handed on before the first faulty one. -/
def handedOn (limit : Nat) (lines : List (List UInt8)) : List String :=
  (lines.takeWhile fun line => (faultOf limit line).isNone).filterMap (textOf limit)

/-- The lines of a stream that are dispatched. -/
def dispatchable (limit : Nat) (bytes : List UInt8) : List String :=
  handedOn limit (wholeLines bytes)

/-- How reading ends: with the first fault, or with the stream. -/
def endOf (limit : Nat) (rest : List UInt8) (lines : List (List UInt8)) : ReaderExit :=
  match lines.findSome? (faultOf limit) with
  | some error => .failed error
  | none => endOfStream limit rest

/-- How reading a stream ends. -/
def exitOf (limit : Nat) (bytes : List UInt8) : ReaderExit :=
  endOf limit (unfinished bytes) (wholeLines bytes)

/-! ## Line by line -/

section

variable {limit : Nat} {bytes : List UInt8} (lines : List (List UInt8)) (rest : List UInt8)

theorem handedOn_of_fault {error : TransportError} (h : faultOf limit bytes = some error) :
    handedOn limit (bytes :: lines) = [] := by
  rw [handedOn, List.takeWhile_cons_of_neg (by simp [h]), List.filterMap_nil]

theorem endOf_of_fault {error : TransportError} (h : faultOf limit bytes = some error) :
    endOf limit rest (bytes :: lines) = .failed error := by
  rw [endOf, List.findSome?_cons_of_isSome (by simp [h]), h]

theorem handedOn_of_none (h : faultOf limit bytes = none) :
    handedOn limit (bytes :: lines) = (textOf limit bytes).toList ++ handedOn limit lines := by
  rw [handedOn, List.takeWhile_cons_of_pos (by simp [h]), List.filterMap_cons]
  cases textOf limit bytes <;> rfl

theorem endOf_of_none (h : faultOf limit bytes = none) :
    endOf limit rest (bytes :: lines) = endOf limit rest lines := by
  rw [endOf, endOf, List.findSome?_cons_of_isNone (by simp [h])]

end

variable {ν ρ σ : Type} (dispatcher : Dispatcher ν ρ) (note : σ → LogEntry → σ)

/-- Dispatches lines one after the other. -/
def dispatchAll (hear : σ → Delivery ν ρ → Except σ σ) (state : σ) (lines : List String) : σ :=
  lines.foldl (fun state line => (dispatcher.dispatchLine note hear state line).1) state

/-- The reference in closed form, when the listeners return. -/
theorem readWhole_dispatch {hear : σ → Delivery ν ρ → Except σ σ}
    (returns : Dispatcher.Returns hear) (limit : Nat) (rest : List UInt8)
    (lines : List (List UInt8)) (state : σ) :
    readWhole limit (dispatcher.dispatchLine note hear) rest state lines =
      (dispatchAll dispatcher note hear state (handedOn limit lines), endOf limit rest lines) := by
  induction lines generalizing state with
  | nil => rfl
  | cons bytes lines ih =>
    cases hline : Line.ofBytes limit bytes with
    | fault error =>
      have hfault : faultOf limit bytes = some error := by rw [faultOf, hline]
      rw [readWhole, hline, handedOn_of_fault lines hfault, endOf_of_fault lines rest hfault]
      rfl
    | blank =>
      have hfault : faultOf limit bytes = none := by rw [faultOf, hline]
      have htext : textOf limit bytes = none := by rw [textOf, hline]
      rw [readWhole, hline, handedOn_of_none lines hfault, endOf_of_none lines rest hfault, htext]
      exact ih state
    | text line =>
      have htext : textOf limit bytes = some line := by rw [textOf, hline]
      cases hdocument : Document.ofLine line with
      | error error =>
        have hfault : faultOf limit bytes = some (.undecodable error) := by
          simp only [faultOf, hline, hdocument]
        rw [handedOn_of_fault lines hfault, endOf_of_fault lines rest hfault]
        simp only [readWhole, hline, dispatcher.dispatchLine_of_error note hdocument]
        rfl
      | ok document =>
        have hfault : faultOf limit bytes = none := by simp only [faultOf, hline, hdocument]
        have hstep := dispatcher.dispatchLine_of_returns note returns hdocument state
        rw [handedOn_of_none lines hfault, endOf_of_none lines rest hfault, htext]
        simp only [readWhole, hline, hstep, dispatchAll, Option.toList_some, List.singleton_append,
          List.foldl_cons]
        exact ih _

/-- **Framing does not depend on how the network cuts the bytes.** Reading is the reference on the
whole stream. When the listeners return, the lines that are dispatched and the end of the reading
are those of the stream. -/
theorem readLines_dispatch (limit : Nat) (hear : σ → Delivery ν ρ → Except σ σ) (state : σ)
    (reads : List Read) (calm : Undisturbed reads) :
    readLines limit (dispatcher.dispatchLine note hear) state reads =
        readWhole limit (dispatcher.dispatchLine note hear) (unfinished (content reads)) state
          (wholeLines (content reads)) ∧
      (Dispatcher.Returns hear →
        readLines limit (dispatcher.dispatchLine note hear) state reads =
          (dispatchAll dispatcher note hear state (dispatchable limit (content reads)),
            exitOf limit (content reads))) := by
  have hwhole := readLines_eq_readWhole limit (dispatcher.dispatchLine note hear) state reads calm
  refine ⟨hwhole, fun returns => ?_⟩
  rw [hwhole]
  exact readWhole_dispatch dispatcher note returns limit _ _ state

/-- A stream of four lines in five reads: carriage returns and newlines stand at the seams, the
second line is blank, and the third breaks off within a string, so the fourth is never dispatched.
The string would hold the carriage return behind it if that belonged to the line. -/
def seamedReads : List Read :=
  [.bytes [123], .interrupted, .bytes [125, 13], .bytes [10, 10, 123, 34],
    .bytes [13, 10, 123, 125, 10]]

theorem readLines_dispatch_seamed :
    Undisturbed seamedReads ∧
      readLines 3
          (({ notificationListeners := ⟨[()]⟩ } : Dispatcher Unit Unit).dispatchLine
            (fun (heard : Nat) _ => heard) (fun heard _ => .ok (heard + 1)))
          0 seamedReads =
        (1, .failed (.undecodable (.malformed .endInString))) ∧
      Document.ofLine "\x7b\"\r" = .error (.malformed .controlCharacter) := by
  have calm : Undisturbed seamedReads := by intro reason; simp [seamedReads]
  refine ⟨calm, ?_, by rfl⟩
  rw [(readLines_dispatch _ _ 3 _ 0 seamedReads calm).2 fun heard _ => ⟨heard + 1, rfl⟩]
  decide

end CavityConsole.Transport

import CavityConsole.Proofs.Console.Correlation

/-!
# A response that is overtaken on its way into the slot

A reader does not offer a response in one piece. It looks at the window first, and if the window was
open it puts the response into the slot afterwards. Between the two it carries the response, and
meanwhile the call under way can end and the next one drain the slot and begin. When nothing comes
between, a look and a put are one delivery (`look_put`).

**The law** (`answer_of_carried`): an answered command was answered by the response that the reader
carried when the command drained the slot, and if it carried none, by the first that it took up
after the command's own window opened. So a late response stays out of the next command unless it is
being carried while that command drains the slot; `carried_response_answers_next` is a run in which
it is.

Nothing is lost on the way (`carried_append_taken`), and between its draining and the opening of its
window a call has nothing taken up for it (`taken_since_begin`).

**What it does not establish.** The law is about commands that are answered; how long a wait lasts
is left to the schedule.
-/

namespace CavityConsole

open Console

/-- A console and the response that its reader carries: it found the window open for it and has not
put it into the slot yet. -/
structure Handoff where
  /-- The console. -/
  console : Console
  /-- The response on its way. -/
  carried : Option Document := none

/-- What the reader and the caller can do, each in one piece. -/
inductive Move where
  /-- The reader looks at the window for its next response. -/
  | look (response : Document)
  /-- The reader puts the response that it carries into the slot. -/
  | put
  /-- The reader gives up its end of the slot. -/
  | leave
  /-- The caller takes a step of its call. -/
  | own (s : Step) (call : s.isArrival = false)

namespace Handoff

/-- A console that nothing happened to. -/
def fresh (timeout : Duration) : Handoff := { console := .fresh timeout }

/-- What a move does. A move of the reader that is not due changes nothing. -/
def step (handoff : Handoff) : Move → Handoff × Effect
  | .look response =>
    match handoff.carried with
    | some _ => (handoff, {})
    | none =>
      if handoff.console.slot.awaiting then ({ handoff with carried := some response }, {})
      else (handoff, { log := [.idleResponse response] })
  | .put =>
    match handoff.carried with
    | none => (handoff, {})
    | some response =>
      let (slot, entries) := handoff.console.slot.put response
      ({ console := { handoff.console with slot } }, { log := entries })
  | .leave =>
    match handoff.carried with
    | some _ => (handoff, {})
    | none => ({ handoff with console := (handoff.console.step .disconnect).1 }, {})
  | .own s _ =>
    let (console, effect) := handoff.console.step s
    ({ handoff with console }, effect)

/-- What moves lead to. -/
def after (handoff : Handoff) : List Move → Handoff
  | [] => handoff
  | m :: moves => after (handoff.step m).1 moves

variable (handoff : Handoff) (moves : List Move)

@[simp] theorem after_nil : handoff.after [] = handoff := rfl

@[simp] theorem after_cons (m : Move) :
    handoff.after (m :: moves) = (handoff.step m).1.after moves := rfl

@[simp] theorem after_append (later : List Move) :
    handoff.after (moves ++ later) = (handoff.after moves).after later := by
  induction moves generalizing handoff with
  | nil => rfl
  | cons m moves ih => exact ih (handoff.step m).1

/-- **A look and a put with nothing between are one delivery**, in what they do and in what they
log. -/
theorem look_put (console : Console) (response : Document) :
    let looked := Handoff.step { console } (.look response)
    (looked.1.step .put).1 = { console := (console.step (.deliver response)).1 } ∧
      looked.2.log ++ (looked.1.step .put).2.log = (console.step (.deliver response)).2.log := by
  dsimp only
  cases hopen : console.slot.awaiting with
  | true =>
    have hlook : Handoff.step { console } (.look response) =
        ({ console, carried := some response }, {}) := by
      simp only [step, hopen, if_pos]
    rw [hlook, Console.step, Slot.offer_open response hopen]
    exact ⟨rfl, rfl⟩
  | false =>
    have hlook : Handoff.step { console } (.look response) =
        ({ console }, { log := [.idleResponse response] }) := by
      simp only [step, hopen, Bool.false_eq_true, if_false]
    rw [hlook, Console.step, Slot.offer_closed response hopen]
    exact ⟨rfl, rfl⟩

/-! ## What is on its way -/

/-- The response that a move takes up. -/
def taken (handoff : Handoff) : Move → List Document
  | .look response =>
    if handoff.carried.isNone && handoff.console.slot.awaiting then [response] else []
  | _ => []

/-- The response that a move puts into the slot. -/
def placed (handoff : Handoff) : Move → List Document
  | .put => handoff.carried.toList
  | _ => []

/-- The responses that moves take up, in order. -/
def takenBy (handoff : Handoff) : List Move → List Document
  | [] => []
  | m :: moves => handoff.taken m ++ takenBy (handoff.step m).1 moves

/-- The responses that moves put into the slot, in order. -/
def placedBy (handoff : Handoff) : List Move → List Document
  | [] => []
  | m :: moves => handoff.placed m ++ placedBy (handoff.step m).1 moves

theorem placedBy_append (later : List Move) :
    handoff.placedBy (moves ++ later) =
      handoff.placedBy moves ++ (handoff.after moves).placedBy later := by
  induction moves generalizing handoff with
  | nil => rfl
  | cons m moves ih => rw [List.cons_append, placedBy, placedBy, ih, List.append_assoc, after_cons]

/-- What a move takes up is carried until it is put. -/
theorem carried_append_taken_step (m : Move) :
    handoff.carried.toList ++ handoff.taken m =
      handoff.placed m ++ (handoff.step m).1.carried.toList := by
  cases m with
  | look response =>
    cases hcarried : handoff.carried with
    | some carried => simp [taken, placed, step, hcarried]
    | none =>
      cases hopen : handoff.console.slot.awaiting with
      | true => simp [taken, placed, step, hcarried, hopen]
      | false => simp [taken, placed, step, hcarried, hopen]
  | put => cases hcarried : handoff.carried <;> simp [taken, placed, step, hcarried]
  | leave => cases hcarried : handoff.carried <;> simp [taken, placed, step, hcarried]
  | own s call => exact List.append_nil _

/-- **Nothing is lost on the way**: what was carried before and what is taken up is put into the
slot, in this order, but for what is carried at the end. -/
theorem carried_append_taken :
    handoff.carried.toList ++ handoff.takenBy moves =
      handoff.placedBy moves ++ (handoff.after moves).carried.toList := by
  induction moves generalizing handoff with
  | nil => exact List.append_nil _
  | cons m moves ih =>
    calc handoff.carried.toList ++ (handoff.taken m ++ (handoff.step m).1.takenBy moves)
        = (handoff.carried.toList ++ handoff.taken m) ++ (handoff.step m).1.takenBy moves :=
          (List.append_assoc _ _ _).symm
      _ = handoff.placed m ++ ((handoff.step m).1.carried.toList ++
            (handoff.step m).1.takenBy moves) := by
          rw [carried_append_taken_step, List.append_assoc]
      _ = handoff.placedBy (m :: moves) ++ (handoff.after (m :: moves)).carried.toList := by
          rw [ih, ← List.append_assoc]
          rfl

/-! ## What a move does to the console -/

/-- A move leaves the console alone, puts a response into its slot, or is a step of it that is no
delivery. -/
inductive Acts (handoff : Handoff) (m : Move) : Console → Prop where
  /-- Nothing happens to the console. -/
  | nothing (placed : handoff.placed m = []) : Acts handoff m handoff.console
  /-- The carried response is put into the slot. -/
  | puts (response : Document) (placed : handoff.placed m = [response]) :
    Acts handoff m { handoff.console with slot := (handoff.console.slot.put response).1 }
  /-- The console takes a step. -/
  | steps {s : Step} {next : Console} (placed : handoff.placed m = [])
    (which : s = .disconnect ∨ ∃ call, m = .own s call)
    (ht : Console.Transition handoff.console s next) : Acts handoff m next

theorem acts (m : Move) : Acts handoff m (handoff.step m).1.console := by
  cases m with
  | look response =>
    have hsame : (handoff.step (.look response)).1.console = handoff.console := by
      cases hcarried : handoff.carried with
      | some _ => simp only [step, hcarried]
      | none =>
        simp only [step, hcarried]
        split <;> rfl
    rw [hsame]
    exact .nothing rfl
  | put =>
    cases hcarried : handoff.carried with
    | none =>
      have hplaced : handoff.placed .put = [] := by rw [placed, hcarried, Option.toList_none]
      simp only [step, hcarried]
      exact .nothing hplaced
    | some response =>
      have hplaced : handoff.placed .put = [response] := by
        rw [placed, hcarried, Option.toList_some]
      simp only [step, hcarried]
      exact .puts response hplaced
  | leave =>
    cases hcarried : handoff.carried with
    | some _ =>
      simp only [step, hcarried]
      exact .nothing rfl
    | none =>
      simp only [step, hcarried]
      exact .steps rfl (.inl rfl) (handoff.console.transition .disconnect)
  | own s call => exact .steps rfl (.inr ⟨call, rfl⟩) (handoff.console.transition s)

/-- A step that is a move of its own is no delivery. -/
theorem not_deliver {m : Move} {s : Step} (which : s = .disconnect ∨ ∃ call, m = .own s call) :
    ∀ response, s ≠ .deliver response := by
  rintro response rfl
  rcases which with h | ⟨call, -⟩
  · cases h
  · cases call

/-- **Every move keeps the window where the call needs it.** -/
theorem windowed_step {handoff : Handoff} (h : handoff.console.Windowed) (m : Move) :
    (handoff.step m).1.console.Windowed := by
  generalize hnext : (handoff.step m).1.console = next
  have hacts : Acts handoff m next := hnext ▸ handoff.acts m
  cases hacts with
  | nothing => exact h
  | puts response => exact (Slot.put_awaiting _ response).trans h
  | steps _ _ ht => exact h.transition ht

theorem windowed_fresh (timeout : Duration) : (fresh timeout).console.Windowed := rfl

theorem windowed_after {handoff : Handoff} (h : handoff.console.Windowed) (moves : List Move) :
    (handoff.after moves).console.Windowed := by
  induction moves generalizing handoff with
  | nil => exact h
  | cons m moves ih => exact ih (windowed_step h m)

/-- A move of a call that stays under way keeps the first response that was put for it. -/
theorem answering_step {command : Command} {arrived : List Document} {handoff : Handoff}
    (h : Answering command arrived handoff.console) (m : Move)
    (lasts : (handoff.step m).1.console.call ≠ none) :
    Answering command (arrived ++ handoff.placed m) (handoff.step m).1.console := by
  generalize hnext : (handoff.step m).1.console = next at lasts ⊢
  have hacts : Acts handoff m next := hnext ▸ handoff.acts m
  cases hacts with
  | nothing hplaced =>
    rw [hplaced, List.append_nil]
    exact h
  | puts response hplaced =>
    rw [hplaced]
    exact h.put response
  | steps hplaced which ht =>
    rw [hplaced, List.append_nil]
    exact h.transition ht (not_deliver which) lasts

/-! ## The moves of a call -/

/-- A call is under way after a move if it was before or the move is its draining. -/
theorem call_of_step {handoff : Handoff} {m : Move} {command : Command} {stage : CallStage}
    (h : (handoff.step m).1.console.call = some ⟨command, stage⟩) :
    (m = .own (.drain command) rfl ∧ handoff.console.call = none) ∨
      ∃ before, handoff.console.call = some ⟨command, before⟩ := by
  generalize hnext : (handoff.step m).1.console = next at h
  have hacts : Acts handoff m next := hnext ▸ handoff.acts m
  cases hacts with
  | nothing | puts => exact .inr ⟨stage, h⟩
  | steps _ which ht =>
    cases ht with
    | deliver response => exact absurd rfl (not_deliver which response)
    | disconnect | notDue => exact .inr ⟨stage, h⟩
    | drain idle =>
      cases h
      rcases which with h | ⟨_, rfl⟩
      · cases h
      · exact .inl ⟨rfl, idle⟩
    | begin due | wrote due | writeFailed due | endWait due =>
      cases h
      exact .inr ⟨_, due⟩
    | release => cases h

/-- The call under way stays under way. -/
def Lasts (handoff : Handoff) (moves : List Move) : Prop :=
  ∀ early, early <+: moves → (handoff.after early).console.call ≠ none

theorem Lasts.tail {handoff : Handoff} {m : Move} {moves : List Move}
    (h : handoff.Lasts (m :: moves)) : (handoff.step m).1.Lasts moves :=
  fun early hearly => h (m :: early) (List.prefix_cons_inj m |>.mpr hearly)

theorem Lasts.concat {handoff : Handoff} {m : Move} {moves : List Move} (h : handoff.Lasts moves)
    (hlast : (handoff.after (moves ++ [m])).console.call ≠ none) :
    handoff.Lasts (moves ++ [m]) := forall_prefix_concat h hlast

/-- A command drains the slot. -/
def drain (handoff : Handoff) (command : Command) : Handoff :=
  (handoff.step (.own (.drain command) rfl)).1

section

variable {handoff : Handoff} {command : Command} (idle : handoff.console.call = none)
include idle

/-- A call that just drained the slot is at its first stage. -/
theorem call_drain : (handoff.drain command).console.call = some ⟨command, .drained⟩ := by
  simp only [drain, step, Console.step, idle]

/-- A call that just drained the slot has no response. -/
theorem answering_drain : Answering command [] (handoff.drain command).console := by
  refine .waiting .drained (call_drain idle) (fun _ h => by cases h) ?_
  simp only [drain, step, Console.step, idle]
  exact Slot.drain_pending _

end

/-- **Since a call drained the slot, it keeps the first response that was put for it.** The
induction is on the history from its end: the draining is the last one that was due. -/
theorem since_drain {timeout : Duration} {moves : List Move} {command : Command}
    {stage : CallStage}
    (h : ((fresh timeout).after moves).console.call = some ⟨command, stage⟩) :
    ∃ earlier during, moves = earlier ++ .own (.drain command) rfl :: during ∧
      ((fresh timeout).after earlier).console.call = none ∧
      (((fresh timeout).after earlier).drain command).Lasts during ∧
      Answering command ((((fresh timeout).after earlier).drain command).placedBy during)
        ((((fresh timeout).after earlier).drain command).after during).console := by
  induction moves using List.reverseRecOn generalizing stage with
  | nil => cases h
  | append_singleton moves m ih =>
    rw [after_append] at h
    rcases call_of_step h with ⟨rfl, idle⟩ | ⟨before, hbefore⟩
    · refine ⟨moves, [], rfl, idle, fun early hearly => ?_, answering_drain idle⟩
      rw [List.prefix_nil.mp hearly, after_nil, call_drain idle]
      exact Option.some_ne_none _
    · obtain ⟨earlier, during, rfl, idle, lasts, hanswering⟩ := ih hbefore
      rw [after_append] at h
      have hcall : (((((fresh timeout).after earlier).drain command).after during).step
          m).1.console.call ≠ none := Eq.trans_ne h (Option.some_ne_none _)
      refine ⟨earlier, during ++ [m], by simp, idle, lasts.concat ?_, ?_⟩
      · rw [after_append]
        exact hcall
      · have hnext := answering_step hanswering m hcall
        rw [placedBy_append, after_append]
        simpa [placedBy] using hnext

/-- **Between its draining and the opening of its window a call has nothing taken up for it.** -/
theorem taken_since_begin {command : Command} {stage : CallStage} {handoff : Handoff}
    {during : List Move} (windowed : handoff.console.Windowed)
    (drained : handoff.console.call = some ⟨command, .drained⟩) (lasts : handoff.Lasts during)
    (h : (handoff.after during).console.call = some ⟨command, stage⟩) (past : stage ≠ .drained) :
    ∃ opening window, during = opening ++ .own .begin rfl :: window ∧
      (handoff.after opening).console.call = some ⟨command, .drained⟩ ∧
      handoff.takenBy during = (handoff.after (opening ++ [.own .begin rfl])).takenBy window := by
  induction during generalizing handoff with
  | nil =>
    cases h.symm.trans drained
    exact absurd rfl past
  | cons m during ih =>
    have hclosed : handoff.console.slot.awaiting = false := by
      rw [windowed]
      exact drained ▸ rfl
    have htaken : handoff.taken m = [] := by
      cases m with
      | look response => rw [taken, hclosed, Bool.and_false, if_neg Bool.false_ne_true]
      | _ => rfl
    -- either the window opens now or the call is still drained
    have hstep : m = .own .begin rfl ∨
        (handoff.step m).1.console.call = some ⟨command, .drained⟩ := by
      have hcall : (handoff.step m).1.console.call ≠ none :=
        lasts [m] (List.prefix_append [m] during)
      generalize hnext : (handoff.step m).1.console = next at hcall ⊢
      have hacts : Acts handoff m next := hnext ▸ handoff.acts m
      cases hacts with
      | nothing | puts => exact .inr drained
      | steps _ which ht =>
        cases ht with
        | deliver response => exact absurd rfl (not_deliver which response)
        | disconnect | notDue => exact .inr drained
        | drain idle => cases drained.symm.trans idle
        | begin =>
          rcases which with h | ⟨_, rfl⟩
          · cases h
          · exact .inl rfl
        | wrote due | writeFailed due | endWait due => cases drained.symm.trans due
        | release => exact absurd rfl hcall
    rcases hstep with rfl | hdrained
    · exact ⟨[], during, rfl, drained, by rw [takenBy, htaken]; rfl⟩
    · obtain ⟨opening, window, rfl, hopening, hwindow⟩ :=
        ih (windowed_step windowed m) hdrained lasts.tail h
      refine ⟨m :: opening, window, rfl, hopening, ?_⟩
      rw [takenBy, htaken, hwindow]
      rfl

/-! ## Which response answers a command -/

/-- What is put for a call is the beginning of what was carried when it drained the slot and of what
was taken up since. -/
theorem first_placed {handoff : Handoff} {moves : List Move} {response : Document}
    (h : (handoff.placedBy moves).head? = some response) :
    (handoff.carried.toList ++ handoff.takenBy moves).head? = some response := by
  rw [carried_append_taken]
  exact head?_append_of_some h

/-- Only the end of a call finishes it. -/
theorem decided_of_finished {handoff : Handoff} {m : Move} {command : Command}
    {outcome : Except CommandError Document}
    (h : (handoff.step m).2.finished = some (command, some outcome)) :
    handoff.console.call = some ⟨command, .decided outcome⟩ := by
  cases m with
  | look response =>
    cases hcarried : handoff.carried with
    | some _ => simp only [step, hcarried] at h; cases h
    | none =>
      simp only [step, hcarried] at h
      split at h <;> cases h
  | put | leave => cases hcarried : handoff.carried <;> simp only [step, hcarried] at h <;> cases h
  | own s call => exact (Console.decided_of_finished handoff.console h).2

/-- Where the outcome of a command comes from: in its history the command drained the slot after
`earlier`, opened its window after `opening` and stayed under way through `window`. -/
structure Provenance (timeout : Duration) (command : Command)
    (outcome : Except CommandError Document) (earlier opening window : List Move) : Prop where
  /-- The call begins with its draining. -/
  idle : ((fresh timeout).after earlier).console.call = none
  /-- The window opens for it. -/
  drained : ((((fresh timeout).after earlier).drain command).after opening).console.call =
    some ⟨command, .drained⟩
  /-- It is the one call from there on. -/
  lasts : (((fresh timeout).after earlier).drain command).Lasts
    (opening ++ .own .begin rfl :: window)
  /-- A response that was carried while the slot was drained decides. -/
  late : ∀ response, ((fresh timeout).after earlier).carried = some response →
    outcome = classify command.name response
  /-- Otherwise the first response decides that was taken up since the window opened. -/
  own : ((fresh timeout).after earlier).carried = none →
    ∃ response, (((((fresh timeout).after earlier).drain command).after
        (opening ++ [.own .begin rfl])).takenBy window).head? = some response ∧
      outcome = classify command.name response

/-- **An answered command was answered by the response that was carried when it drained the slot,
and if none was, by the first that was taken up after its own window opened.** So a response for
which the reader looked before a command's window opened answers it exactly when it was still being
carried while the command drained the slot. -/
theorem answer_of_carried {timeout : Duration} {before : List Move} {m : Move} {command : Command}
    {outcome : Except CommandError Document}
    (finished : (((fresh timeout).after before).step m).2.finished = some (command, some outcome))
    (h : IsAnswer outcome) :
    ∃ earlier opening window,
      before = earlier ++ .own (.drain command) rfl :: (opening ++ .own .begin rfl :: window) ∧
      Provenance timeout command outcome earlier opening window := by
  have hdecided := decided_of_finished finished
  obtain ⟨earlier, during, rfl, idle, lasts, hanswering⟩ := since_drain hdecided
  rw [after_append] at hdecided
  have windowed : (((fresh timeout).after earlier).drain command).console.Windowed :=
    windowed_step (windowed_after (windowed_fresh timeout) earlier) _
  obtain ⟨opening, window, rfl, hopening, htaken⟩ :=
    taken_since_begin windowed (call_drain idle) lasts hdecided fun h => by cases h
  obtain ⟨response, hfirst, houtcome⟩ := hanswering.response hdecided h
  have hsource := first_placed hfirst
  have hcarried : (((fresh timeout).after earlier).drain command).carried =
      ((fresh timeout).after earlier).carried := rfl
  rw [htaken, hcarried] at hsource
  refine ⟨earlier, opening, window, rfl, idle, hopening, lasts, fun late hlate => ?_,
    fun hnone => ?_⟩
  · rw [hlate] at hsource
    cases hsource
    exact houtcome
  · rw [hnone] at hsource
    exact ⟨response, hsource, houtcome⟩

/-- A response comes before its command is written. -/
def timely : List Move :=
  [.own (.drain .version) rfl, .own .begin rfl, .look (versionResponse "1"), .own .wrote rfl, .put,
    .own .endWait rfl]

theorem answer_of_carried_timely :
    (((fresh defaultTimeout).after timely).step (.own .release rfl)).2.finished =
        some (.version, some (.ok (versionResponse "1"))) ∧
      ∃ earlier opening window,
        timely = earlier ++ .own (.drain .version) rfl ::
          (opening ++ .own .begin rfl :: window) ∧
        Provenance defaultTimeout .version (.ok (versionResponse "1")) earlier opening window := by
  have finished : (((fresh defaultTimeout).after timely).step (.own .release rfl)).2.finished =
      some (.version, some (.ok (versionResponse "1"))) := rfl
  exact ⟨finished, answer_of_carried finished (.inl ⟨_, rfl⟩)⟩

/-- A command is not answered in time. Its reader finds the window open but is overtaken by the end
of the wait and by the next command. -/
def overtaken : List Move :=
  [.own (.drain .stop) rfl, .own .begin rfl, .own .wrote rfl, .look (versionResponse "late"),
    .own .endWait rfl, .own .release rfl, .own (.drain .version) rfl]

/-- The next command waits while the reader goes on. -/
def overtakenWindow : List Move := [.put, .own .wrote rfl, .own .endWait rfl]

/-- **A late response can slip into the next command**: the reader looks for nothing after that
command's window opened, and yet it is answered. -/
theorem carried_response_answers_next :
    (((fresh defaultTimeout).after (overtaken.take 5)).step (.own .release rfl)).2.finished =
        some (.stop, some (.error (.timeout "stop" defaultTimeout))) ∧
      ((fresh defaultTimeout).after overtaken).console.call = some ⟨.version, .drained⟩ ∧
      (∀ response, .look response ∉ overtakenWindow) ∧
      (((fresh defaultTimeout).after (overtaken ++ .own .begin rfl :: overtakenWindow)).step
          (.own .release rfl)).2.finished =
        some (.version, some (.ok (versionResponse "late"))) := by
  refine ⟨rfl, rfl, fun response => ?_, rfl⟩
  simp [overtakenWindow]

end Handoff

end CavityConsole

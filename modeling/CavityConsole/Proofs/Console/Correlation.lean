import CavityConsole.Proofs.Console.Run
import Mathlib.Data.List.Induction

/-!
# Which response answers a command

Responses carry nothing that tells which command they are for. The laws here say what the window,
the slot and the draining make of that, for every history of a console: any commands, with responses
and the loss of the connection between any two steps.

* `answered_by_own_window`: a command that is accepted or rejected was answered by the first
  response that arrived after its own window opened, and by no other.
* `outcome_of_window`: a command whose line was written and in whose window a response arrived
  before its wait ended is answered by it, even when the connection was given up meanwhile; a wait
  ends without a response only when none arrived.
* `after_begin`: of what happened before its window opened, only the loss of the connection can
  change anything about a command.

A run from the opening window on keeps one invariant (`Answering`): as long as the wait goes on, the
slot holds the first response that arrived in the window.

**What they do not establish.** Here a response is offered to the slot in one step. What becomes of
one that is overtaken on its way into the slot is a matter of its own.
-/

namespace CavityConsole.Console

/-- What holds all along a list and behind its next element holds all along both. -/
theorem forall_prefix_concat {α : Type} {p : List α → Prop} {l : List α} {a : α}
    (h : ∀ early, early <+: l → p early) (hlast : p (l ++ [a])) :
    ∀ early, early <+: l ++ [a] → p early := by
  intro early hearly
  rcases List.prefix_concat_iff.mp hearly with rfl | hearly
  · exact hlast
  · exact h early hearly

/-! ## A window -/

/-- The call under way stays under way. -/
def Lasts (console : Console) (steps : List Step) : Prop :=
  ∀ early, early <+: steps → (console.after early).call ≠ none

theorem lasts_nil {console : Console} (h : console.call ≠ none) : console.Lasts [] := by
  intro early hearly
  rw [List.prefix_nil.mp hearly]
  exact h

theorem lasts_cons {console : Console} {s : Step} {steps : List Step} (h : console.call ≠ none)
    (rest : (console.step s).1.Lasts steps) : console.Lasts (s :: steps) := by
  intro early hearly
  cases early with
  | nil => exact h
  | cons s' early =>
    obtain ⟨rfl, hrest⟩ := List.cons_prefix_cons.mp hearly
    exact rest early hrest

theorem Lasts.tail {console : Console} {s : Step} {steps : List Step}
    (h : console.Lasts (s :: steps)) : (console.step s).1.Lasts steps :=
  fun early hearly => h (s :: early) (List.prefix_cons_inj s |>.mpr hearly)

theorem Lasts.head {console : Console} {s : Step} {steps : List Step}
    (h : console.Lasts (s :: steps)) : (console.step s).1.call ≠ none :=
  h [s] (List.prefix_append [s] steps)

theorem Lasts.concat {console : Console} {s : Step} {steps : List Step}
    (h : console.Lasts steps) (hlast : (console.after (steps ++ [s])).call ≠ none) :
    console.Lasts (steps ++ [s]) := forall_prefix_concat h hlast

/-- Without its end a call stays under way. -/
theorem lasts_of_held {console : Console} {steps : List Step} (h : console.call ≠ none)
    (held : .release ∉ steps) : console.Lasts steps := by
  induction steps generalizing console with
  | nil => exact lasts_nil h
  | cons s steps ih =>
    obtain ⟨hs, hrest⟩ := List.ne_and_not_mem_of_not_mem_cons held
    refine lasts_cons h (ih ?_ hrest)
    generalize hnext : (console.step s).1 = next
    have ht : Transition console s next := hnext ▸ console.transition s
    cases ht with
    | deliver | disconnect | notDue => exact h
    | drain | begin | wrote | writeFailed | endWait => exact Option.some_ne_none _
    | release => exact absurd rfl hs

/-- An outcome that only a response can give. -/
def IsAnswer (outcome : Except CommandError Document) : Prop :=
  (∃ response, outcome = .ok response) ∨
    ∃ command reason, outcome = .error (.rejected command reason)

/-- What a wait ends with when these responses arrived in the window before. -/
def answer (command : Command) (timeout : Duration) (connected : Bool) :
    List Document → Except CommandError Document
  | response :: _ => classify command.name response
  | [] =>
    if connected then .error (.timeout command.name timeout)
    else .error (.interrupted command.name)

/-- A call for which these responses were put into the slot. -/
inductive Answering (command : Command) (arrived : List Document) (console : Console) : Prop where
  /-- The outcome is open: the slot holds the first response. -/
  | waiting (stage : CallStage) (call : console.call = some ⟨command, stage⟩)
    (undecided : ∀ outcome, stage ≠ .decided outcome)
    (first : console.slot.pending = arrived.head?)
  /-- The outcome is known: if a response gave it, the first one did. -/
  | decided (outcome : Except CommandError Document)
    (call : console.call = some ⟨command, .decided outcome⟩)
    (own : IsAnswer outcome → ∃ response, arrived.head? = some response ∧
      outcome = classify command.name response)

/-- The answer of a decided call is the first response. -/
theorem Answering.response {command : Command} {arrived : List Document} {console : Console}
    {outcome : Except CommandError Document} (answering : Answering command arrived console)
    (hdecided : console.call = some ⟨command, .decided outcome⟩) (h : IsAnswer outcome) :
    ∃ response, arrived.head? = some response ∧ outcome = classify command.name response := by
  cases answering with
  | waiting stage call undecided =>
    cases call.symm.trans hdecided
    exact absurd rfl (undecided outcome)
  | decided outcome' call own =>
    cases call.symm.trans hdecided
    exact own h

theorem answering_opened (timeout : Duration) (connected : Bool) (command : Command) :
    Answering command [] (opened timeout connected command) :=
  .waiting .opened rfl nofun rfl

/-- The end of a wait gives the answer to what arrived. -/
theorem waitOutcome_endWait (console : Console) (command : Command) {arrived : List Document}
    (h : console.slot.pending = arrived.head?) :
    waitOutcome console command console.slot.endWait.2 =
      answer command console.timeout console.slot.connected arrived := by
  cases arrived with
  | nil =>
    rw [Slot.endWait, h]
    cases hconnected : console.slot.connected <;> rfl
  | cons response rest =>
    rw [Slot.endWait, h]
    rfl

/-- An answer to what arrived is the classification of the first response. -/
theorem response_of_answer {command : Command} {timeout : Duration} {connected : Bool}
    {arrived : List Document} (h : IsAnswer (answer command timeout connected arrived)) :
    ∃ response, arrived.head? = some response ∧
      answer command timeout connected arrived = classify command.name response := by
  cases arrived with
  | cons response rest => exact ⟨response, rfl, rfl⟩
  | nil =>
    exfalso
    cases connected <;> rcases h with ⟨_, h⟩ | ⟨_, _, h⟩ <;> cases h

theorem not_isAnswer_send (command reason : String) :
    ¬ IsAnswer (.error (.send command reason)) := by
  rintro (⟨_, h⟩ | ⟨_, _, h⟩) <;> cases h

/-- A first response stays the first. -/
theorem head?_append_of_some {arrived more : List Document} {response : Document}
    (h : arrived.head? = some response) : (arrived ++ more).head? = some response := by
  rw [List.head?_append, h, Option.some_or]

/-- A response that is put into the slot is the first one or changes nothing. -/
theorem Answering.put {command : Command} {arrived : List Document} {console : Console}
    (h : Answering command arrived console) (response : Document) :
    Answering command (arrived ++ [response])
      { console with slot := (console.slot.put response).1 } := by
  cases h with
  | waiting stage call undecided first =>
    refine .waiting stage call undecided ?_
    rw [Slot.put_pending, first, List.head?_append]
    rfl
  | decided outcome call own =>
    refine .decided outcome call fun h => ?_
    obtain ⟨first, hfirst, houtcome⟩ := own h
    exact ⟨first, head?_append_of_some hfirst, houtcome⟩

/-- **A step of a call that stays under way keeps the first response**, unless one arrives. -/
theorem Answering.transition {command : Command} {arrived : List Document}
    {console next : Console} {s : Step} (h : Answering command arrived console)
    (ht : Transition console s next) (hs : ∀ response, s ≠ .deliver response)
    (lasts : next.call ≠ none) : Answering command arrived next := by
  cases h with
  | waiting stage call undecided first =>
    cases ht with
    | deliver response => exact absurd rfl (hs response)
    | disconnect => exact .waiting stage call undecided first
    | drain idle => cases call.symm.trans idle
    | begin drained =>
      cases call.symm.trans drained
      exact .waiting .opened rfl nofun first
    | wrote opened =>
      cases call.symm.trans opened
      exact .waiting .written rfl nofun first
    | writeFailed opened =>
      cases call.symm.trans opened
      exact .decided _ rfl fun h => absurd h (not_isAnswer_send _ _)
    | endWait written =>
      cases call.symm.trans written
      refine .decided _ rfl fun h => ?_
      rw [waitOutcome_endWait console command first] at h ⊢
      exact response_of_answer h
    | release _ => exact absurd rfl lasts
    | notDue _ => exact .waiting stage call undecided first
  | decided outcome call own =>
    cases ht with
    | deliver response => exact absurd rfl (hs response)
    | disconnect => exact .decided outcome call own
    | drain idle => cases call.symm.trans idle
    | begin due | wrote due | writeFailed due | endWait due => cases call.symm.trans due
    | release _ => exact absurd rfl lasts
    | notDue _ => exact .decided outcome call own

/-- A window stays open as long as its call lasts. -/
theorem open_transition {console next : Console} {s : Step} (ht : Transition console s next)
    (isOpen : console.slot.awaiting = true) (lasts : next.call ≠ none) :
    next.slot.awaiting = true := by
  cases ht with
  | deliver response => exact (Slot.offer_awaiting _ response).trans isOpen
  | drain => exact (Slot.drain_awaiting _).trans isOpen
  | begin => rfl
  | endWait => exact (Slot.endWait_awaiting _).trans isOpen
  | release => exact absurd rfl lasts
  | disconnect | wrote | writeFailed | notDue => exact isOpen

/-- **A call that stays under way keeps the first response of its window.** -/
theorem Answering.after {command : Command} {arrived : List Document} {console : Console}
    {steps : List Step} (h : Answering command arrived console)
    (isOpen : console.slot.awaiting = true) (lasts : console.Lasts steps) :
    Answering command (arrived ++ deliveries steps) (console.after steps) := by
  induction steps generalizing console arrived with
  | nil => simpa using h
  | cons s steps ih =>
    have hopen := open_transition (console.transition s) isOpen lasts.head
    have hstep : Answering command (arrived ++ deliveries [s]) (console.step s).1 := by
      by_cases hs : ∃ response, s = .deliver response
      · obtain ⟨response, rfl⟩ := hs
        have hput := h.put response
        rwa [← Slot.offer_open response isOpen] at hput
      · rw [deliveries_singleton (not_exists.mp hs), List.append_nil]
        exact h.transition (console.transition s) (not_exists.mp hs) lasts.head
    have hrest := ih hstep hopen lasts.tail
    rwa [List.append_assoc, ← deliveries_append] at hrest

/-! ## The window of a finished call -/

/-- A call comes past its draining only by the opening of its window. -/
theorem past_of_transition {console next : Console} {s : Step} {command : Command}
    {stage : CallStage} (ht : Transition console s next)
    (h : next.call = some ⟨command, stage⟩) (past : stage ≠ .drained) :
    (s = .begin ∧ console.call = some ⟨command, .drained⟩) ∨
      ∃ before, console.call = some ⟨command, before⟩ ∧ before ≠ .drained := by
  cases ht with
  | deliver | disconnect | notDue => exact .inr ⟨stage, h, past⟩
  | drain => cases h; exact absurd rfl past
  | begin drained => cases h; exact .inl ⟨rfl, drained⟩
  | wrote due | writeFailed due | endWait due =>
    cases h
    exact .inr ⟨_, due, fun h => by cases h⟩
  | release => cases h

/-- **A call past its draining was opened by a window of its own.** The induction is on the history
from its end: the window is the last one that opened. -/
theorem opened_before {timeout : Duration} {steps : List Step} {command : Command}
    {stage : CallStage} (h : ((fresh timeout).after steps).call = some ⟨command, stage⟩)
    (past : stage ≠ .drained) :
    ∃ earlier during, steps = earlier ++ .begin :: during ∧
      ((fresh timeout).after earlier).call = some ⟨command, .drained⟩ ∧
      ((fresh timeout).after (earlier ++ [.begin])).Lasts during := by
  induction steps using List.reverseRecOn generalizing stage with
  | nil => cases h
  | append_singleton steps s ih =>
    have hcall : ((fresh timeout).after (steps ++ [s])).call ≠ none := by rw [h]; simp
    have ht := ((fresh timeout).after steps).transition s
    rw [after_append] at h hcall
    rcases past_of_transition ht h past with ⟨rfl, drained⟩ | ⟨before, hbefore, hpast⟩
    · refine ⟨steps, [], rfl, drained, lasts_nil ?_⟩
      rw [after_append]
      exact hcall
    · obtain ⟨earlier, during, rfl, drained, lasts⟩ := ih hbefore hpast
      refine ⟨earlier, during ++ [s], ?_, drained, lasts.concat ?_⟩
      · rw [List.append_assoc, List.cons_append]
      · rw [← after_append, List.append_assoc, List.singleton_append, ← List.cons_append,
          ← List.append_assoc, after_append]
        exact hcall

/-- **An opening window forgets the past**: what follows it can depend on the past only by the
connection. -/
theorem after_begin {timeout : Duration} {earlier : List Step} {command : Command}
    (drained : ((fresh timeout).after earlier).call = some ⟨command, .drained⟩)
    (during : List Step) :
    (fresh timeout).after (earlier ++ .begin :: during) =
      (opened timeout ((fresh timeout).after earlier).slot.connected command).after during := by
  rw [after_append, after_cons, (sound_after_fresh timeout earlier).step_begin drained,
    timeout_after]
  rfl

/-- **As long as a call lasts, its slot holds the first response of its window.** -/
theorem answering_window {timeout : Duration} {earlier during : List Step} {command : Command}
    (drained : ((fresh timeout).after earlier).call = some ⟨command, .drained⟩)
    (lasts : ((fresh timeout).after (earlier ++ [.begin])).Lasts during) :
    Answering command (deliveries during)
      ((fresh timeout).after (earlier ++ .begin :: during)) := by
  rw [after_begin drained, after_nil] at lasts
  rw [after_begin drained]
  exact (answering_opened timeout _ command).after rfl lasts

/-- **An answer comes from the window of its own command**: it is the classification of the first
response that arrived since that window opened. -/
theorem answer_of_own_window {timeout : Duration} {before : List Step} {s : Step}
    {command : Command} {outcome : Except CommandError Document}
    (finished : (((fresh timeout).after before).step s).2.finished = some (command, some outcome))
    (h : IsAnswer outcome) :
    ∃ earlier during response, before = earlier ++ .begin :: during ∧
      ((fresh timeout).after earlier).call = some ⟨command, .drained⟩ ∧
      ((fresh timeout).after (earlier ++ [.begin])).Lasts during ∧
      (deliveries during).head? = some response ∧ outcome = classify command.name response := by
  obtain ⟨-, hdecided⟩ := decided_of_finished _ finished
  obtain ⟨earlier, during, rfl, drained, lasts⟩ := opened_before hdecided (fun h => by cases h)
  obtain ⟨response, hfirst, houtcome⟩ := (answering_window drained lasts).response hdecided h
  exact ⟨earlier, during, response, rfl, drained, lasts, hfirst, houtcome⟩

/-! ## The end of a wait -/

/-- A decided call waits for its end only. -/
theorem decided_transition {console next : Console} {s : Step} {command : Command}
    {outcome : Except CommandError Document} (ht : Transition console s next)
    (h : console.call = some ⟨command, .decided outcome⟩) (hs : s ≠ .release) :
    next.call = some ⟨command, .decided outcome⟩ := by
  cases ht with
  | deliver | disconnect | notDue => exact h
  | drain idle => cases h.symm.trans idle
  | begin due | wrote due | writeFailed due | endWait due => cases h.symm.trans due
  | release => exact absurd rfl hs

theorem decided_after {console : Console} {command : Command}
    {outcome : Except CommandError Document}
    (h : console.call = some ⟨command, .decided outcome⟩) {steps : List Step}
    (hsteps : .release ∉ steps) :
    (console.after steps).call = some ⟨command, .decided outcome⟩ := by
  induction steps generalizing console with
  | nil => exact h
  | cons s steps ih =>
    have hs : s ≠ .release := fun h => hsteps (h ▸ List.mem_cons_self)
    exact ih (decided_transition (console.transition s) h hs)
      fun hmem => hsteps (List.mem_cons_of_mem _ hmem)

/-- While a written command waits, its slot holds the first response of its window. -/
theorem pending_of_written {timeout : Duration} {earlier during : List Step} {command : Command}
    (drained : ((fresh timeout).after earlier).call = some ⟨command, .drained⟩)
    (lasts : ((fresh timeout).after (earlier ++ [.begin])).Lasts during)
    (written :
      ((fresh timeout).after (earlier ++ .begin :: during)).call = some ⟨command, .written⟩) :
    ((fresh timeout).after (earlier ++ .begin :: during)).slot.pending =
      (deliveries during).head? := by
  cases answering_window drained lasts with
  | waiting stage call _ first => exact first
  | decided outcome call _ => cases call.symm.trans written

/-- **The end of a wait answers with what arrived in the window before it**: the first response,
or nothing only when none arrived. -/
theorem outcome_of_window {timeout : Duration} {earlier early late : List Step} {command : Command}
    (drained : ((fresh timeout).after earlier).call = some ⟨command, .drained⟩)
    (lasts : ((fresh timeout).after (earlier ++ [.begin])).Lasts early)
    (written : ((fresh timeout).after (earlier ++ .begin :: early)).call = some ⟨command, .written⟩)
    (held : .release ∉ late) :
    (((fresh timeout).after (earlier ++ .begin :: early ++ .endWait :: late)).step
        .release).2.finished =
      some (command, some (answer command timeout
        ((fresh timeout).after (earlier ++ .begin :: early)).slot.connected
        (deliveries early))) := by
  have hfirst := pending_of_written drained lasts written
  apply finished_of_decided
  rw [after_append, after_cons]
  apply decided_after _ held
  generalize hconsole : (fresh timeout).after (earlier ++ .begin :: early) = console at *
  have htimeout : console.timeout = timeout := by rw [← hconsole, timeout_after]; rfl
  rw [step, written]
  dsimp only
  rw [waitOutcome_endWait console command hfirst, htimeout]

/-- **Between calls the window is closed**, however the call before ended. -/
theorem closed_of_idle {timeout : Duration} {steps : List Step}
    (idle : ((fresh timeout).after steps).call = none) :
    ((fresh timeout).after steps).slot.awaiting = false := by
  rw [(sound_after_fresh timeout steps).windowed, idle]
  rfl

/-- **A command is answered only by a response that arrived for it.** Of every history:

* whatever is accepted or rejected was decided by the first response since its own window opened;
* two histories that lead to the same draining with the same connection lead to the same console
  whatever follows, so no response that arrived before a window opened can answer its command;
* a written command is answered by the first response before the end of its wait, if there is one;
* without a command under way the window is closed. -/
theorem answered_by_own_window (timeout : Duration) :
    (∀ before s command outcome,
      (((fresh timeout).after before).step s).2.finished = some (command, some outcome) →
      IsAnswer outcome →
      ∃ earlier during response, before = earlier ++ .begin :: during ∧
        ((fresh timeout).after earlier).call = some ⟨command, .drained⟩ ∧
        ((fresh timeout).after (earlier ++ [.begin])).Lasts during ∧
        (deliveries during).head? = some response ∧ outcome = classify command.name response) ∧
    (∀ earlier other command,
      ((fresh timeout).after earlier).call = some ⟨command, .drained⟩ →
      ((fresh timeout).after other).call = some ⟨command, .drained⟩ →
      ((fresh timeout).after earlier).slot.connected =
        ((fresh timeout).after other).slot.connected →
      ∀ during, (fresh timeout).after (earlier ++ .begin :: during) =
        (fresh timeout).after (other ++ .begin :: during)) ∧
    (∀ earlier early late command,
      ((fresh timeout).after earlier).call = some ⟨command, .drained⟩ →
      ((fresh timeout).after (earlier ++ [.begin])).Lasts early →
      ((fresh timeout).after (earlier ++ .begin :: early)).call = some ⟨command, .written⟩ →
      .release ∉ late →
      (((fresh timeout).after (earlier ++ .begin :: early ++ .endWait :: late)).step
          .release).2.finished =
        some (command, some (answer command timeout
          ((fresh timeout).after (earlier ++ .begin :: early)).slot.connected
          (deliveries early)))) ∧
    (∀ steps, ((fresh timeout).after steps).call = none →
      ((fresh timeout).after steps).slot.awaiting = false) := by
  refine ⟨fun _ _ _ _ => answer_of_own_window, ?_, fun _ _ _ _ => outcome_of_window,
    fun _ => closed_of_idle⟩
  intro earlier other command drained drained' connected during
  rw [after_begin drained, after_begin drained', connected]

/-- A response with this version. -/
def versionResponse (version : String) : Document :=
  [("response", .string "ok"), ("version", .string version)]

/-- A response comes in vain, the next one is left over from a write that fails; then a command is
due to open its window. -/
def staleHistory : List Step :=
  [.deliver (versionResponse "1"), .drain .stop, .begin, .deliver (versionResponse "2"),
    .writeFailed "gone", .release, .drain .version]

/-- A command is written and answered, and the connection is lost before the answer is taken. -/
def answeredWindow : List Step := [.wrote, .deliver (versionResponse "3"), .disconnect]

theorem answered_by_own_window_after_stale :
    ((fresh defaultTimeout).after staleHistory).call = some ⟨.version, .drained⟩ ∧
      (((fresh defaultTimeout).after (staleHistory ++ .begin :: answeredWindow ++
          .endWait :: [.deliver (versionResponse "4")])).step .release).2.finished =
        some (.version, some (.ok (versionResponse "3"))) := by
  have drained : ((fresh defaultTimeout).after staleHistory).call = some ⟨.version, .drained⟩ := rfl
  refine ⟨drained, ?_⟩
  obtain ⟨-, -, outcome, -⟩ := answered_by_own_window defaultTimeout
  have lasts : ((fresh defaultTimeout).after (staleHistory ++ [.begin])).Lasts answeredWindow :=
    lasts_cons nofun (lasts_cons nofun (lasts_cons nofun (lasts_nil nofun)))
  exact outcome staleHistory answeredWindow [.deliver (versionResponse "4")] .version drained lasts
    rfl (by simp)

end CavityConsole.Console

import CavityConsole.Console.Basic

/-!
# Runs of a console

A history of a console is a list of steps from a fresh console. `after` is the console that such a
list leads to, `deliveries` are the responses that arrive in it, and `outcomes` is what its calls
end with.

`Transition` lists all that a step can do; every fact about histories is proved from it. Two of
these facts carry the theory. The window is open exactly while a call is between its opening and its
end, and the slot is empty when the window is about to open (`Sound`, kept by every step). So a
window opens on a console that remembers nothing of its past but whether the connection is still
held (`Sound.step_begin`).
-/

namespace CavityConsole

namespace Slot

variable (slot : Slot) (response : Document)

@[simp] theorem offer_awaiting : (slot.offer response).1.awaiting = slot.awaiting := by
  unfold offer
  split
  · rfl
  · split <;> rfl

@[simp] theorem offer_connected : (slot.offer response).1.connected = slot.connected := by
  unfold offer
  split
  · rfl
  · split <;> rfl

/-- A closed window keeps responses out. -/
theorem offer_closed {slot : Slot} (h : slot.awaiting = false) :
    slot.offer response = (slot, [.idleResponse response]) := by
  rw [offer, h]
  rfl

/-- Puts a response into the slot unless one is there, whether or not the window is open. -/
def put : Slot × List LogEntry :=
  match slot.pending with
  | some _ => (slot, [.surplusResponse response])
  | none => ({ slot with pending := some response }, [])

/-- An open window lets a response through. -/
theorem offer_open {slot : Slot} (h : slot.awaiting = true) :
    slot.offer response = slot.put response := by
  obtain ⟨awaiting, pending, connected⟩ := slot
  cases h
  rfl

@[simp] theorem put_pending :
    (slot.put response).1.pending = slot.pending.or (some response) := by
  unfold put
  split
  next h => rw [h]; rfl
  next h => rw [h]; rfl

@[simp] theorem put_awaiting : (slot.put response).1.awaiting = slot.awaiting := by
  unfold put
  split <;> rfl

@[simp] theorem drain_pending : slot.drain.1.pending = none := by
  unfold drain
  split
  · assumption
  · rfl

@[simp] theorem drain_awaiting : slot.drain.1.awaiting = slot.awaiting := by
  unfold drain
  split <;> rfl

@[simp] theorem drain_connected : slot.drain.1.connected = slot.connected := by
  unfold drain
  split <;> rfl

@[simp] theorem endWait_pending : slot.endWait.1.pending = none := by
  unfold endWait
  split
  · rfl
  · assumption

@[simp] theorem endWait_awaiting : slot.endWait.1.awaiting = slot.awaiting := by
  unfold endWait
  split <;> rfl

@[simp] theorem endWait_connected : slot.endWait.1.connected = slot.connected := by
  unfold endWait
  split <;> rfl

end Slot

/-- The window of a call at this stage is open. -/
def CallStage.isOpen : CallStage → Bool
  | .drained => false
  | .opened | .written | .decided _ => true

namespace Console

/-! ## Histories -/

/-- A console that nothing happened to. -/
def fresh (timeout : Duration) : Console := { timeout }

/-- The console that steps lead to. -/
def after (console : Console) (steps : List Step) : Console := (console.run steps).1

variable (console : Console) (steps : List Step)

@[simp] theorem after_nil : console.after [] = console := rfl

@[simp] theorem after_cons (s : Step) :
    console.after (s :: steps) = (console.step s).1.after steps := rfl

@[simp] theorem after_append (later : List Step) :
    console.after (steps ++ later) = (console.after steps).after later := by
  induction steps generalizing console with
  | nil => rfl
  | cons s steps ih => exact ih (console.step s).1

/-- The responses that arrive, in order. -/
def deliveries (steps : List Step) : List Document :=
  steps.filterMap fun
    | .deliver response => some response
    | _ => none

@[simp] theorem deliveries_nil : deliveries [] = [] := rfl

@[simp] theorem deliveries_append (later : List Step) :
    deliveries (steps ++ later) = deliveries steps ++ deliveries later :=
  List.filterMap_append

/-- A response does not arrive with any other step. -/
theorem deliveries_singleton {s : Step} (h : ∀ response, s ≠ .deliver response) :
    deliveries [s] = [] := by
  cases s with
  | deliver response => exact absurd rfl (h response)
  | _ => rfl

/-- A step that comes from the connection and not from the call under way. -/
def Step.isArrival : Step → Bool
  | .deliver _ | .disconnect => true
  | _ => false

/-- Deliveries are arrivals. -/
theorem deliveries_filter (steps : List Step) :
    deliveries (steps.filter Step.isArrival) = deliveries steps := by
  induction steps with
  | nil => rfl
  | cons s steps ih =>
    cases s with
    | deliver response => exact congrArg (response :: ·) ih
    | _ => exact ih

theorem deliveries_map (documents : List Document) :
    deliveries (documents.map .deliver) = documents := by
  induction documents with
  | nil => rfl
  | cons document documents ih => exact congrArg (document :: ·) ih

theorem not_release_of_arrivals {steps : List Step} (h : ∀ s ∈ steps, s.isArrival) :
    .release ∉ steps := fun hmem => by cases h _ hmem

/-! ## What a step can do -/

/-- All that a step can do to a console. -/
inductive Transition (console : Console) : Step → Console → Prop where
  /-- A response is offered to the slot. -/
  | deliver (response : Document) :
    Transition console (.deliver response)
      { console with slot := (console.slot.offer response).1 }
  /-- The connection gives up its end. -/
  | disconnect : Transition console .disconnect { console with slot := console.slot.disconnect }
  /-- A call begins. -/
  | drain {command : Command} (idle : console.call = none) :
    Transition console (.drain command)
      { console with slot := console.slot.drain.1, call := some ⟨command, .drained⟩ }
  /-- The window opens. -/
  | begin {command : Command} (drained : console.call = some ⟨command, .drained⟩) :
    Transition console .begin
      { console with slot := console.slot.openWindow, call := some ⟨command, .opened⟩ }
  /-- The line is written. -/
  | wrote {command : Command} (opened : console.call = some ⟨command, .opened⟩) :
    Transition console .wrote { console with call := some ⟨command, .written⟩ }
  /-- The line cannot be written. -/
  | writeFailed {command : Command} {reason : String}
    (opened : console.call = some ⟨command, .opened⟩) :
    Transition console (.writeFailed reason)
      { console with call := some ⟨command, .decided (.error (.send command.name reason))⟩ }
  /-- The wait ends. -/
  | endWait {command : Command} (written : console.call = some ⟨command, .written⟩) :
    Transition console .endWait
      { console with
        slot := console.slot.endWait.1
        call := some ⟨command, .decided (waitOutcome console command console.slot.endWait.2)⟩ }
  /-- The window closes behind a call. -/
  | release {call : Call} (ended : console.call = some call) :
    Transition console .release { console with slot := console.slot.closeWindow, call := none }
  /-- A step of a call that is not due. -/
  | notDue {s : Step} (own : s.isArrival = false) : Transition console s console

/-- **A step does nothing else.** -/
theorem transition (s : Step) : Transition console s (console.step s).1 := by
  cases s with
  | deliver response => exact .deliver response
  | disconnect => exact .disconnect
  | drain command =>
    rw [step]
    split
    · exact .notDue rfl
    next idle => exact .drain idle
  | begin =>
    rw [step]
    split
    next drained => exact .begin drained
    · exact .notDue rfl
  | wrote =>
    rw [step]
    split
    next opened => exact .wrote opened
    · exact .notDue rfl
  | writeFailed reason =>
    rw [step]
    split
    next opened => exact .writeFailed opened
    · exact .notDue rfl
  | endWait =>
    rw [step]
    split
    next written => exact .endWait written
    · exact .notDue rfl
  | release =>
    rw [step]
    split
    next ended => exact .release ended
    next opened => exact .release opened
    · exact .notDue rfl

/-- Nothing but the end of a call finishes it. -/
theorem finished_of_ne_release {s : Step} (h : s ≠ .release) :
    (console.step s).2.finished = none := by
  cases s with
  | release => exact absurd rfl h
  | deliver | disconnect => rfl
  | drain | begin | wrote | writeFailed | endWait =>
    rw [step]
    split <;> rfl

/-- What a finished call gives was decided before. -/
theorem decided_of_finished {s : Step} {command : Command}
    {outcome : Except CommandError Document}
    (h : (console.step s).2.finished = some (command, some outcome)) :
    s = .release ∧ console.call = some ⟨command, .decided outcome⟩ := by
  by_cases hs : s = .release
  · subst hs
    rw [step] at h
    split at h
    next decided => cases h; exact ⟨rfl, decided⟩
    all_goals cases h
  · rw [finished_of_ne_release console hs] at h
    cases h

/-- The end of a decided call gives its outcome. -/
theorem finished_of_decided {command : Command} {outcome : Except CommandError Document}
    (h : console.call = some ⟨command, .decided outcome⟩) :
    (console.step .release).2.finished = some (command, some outcome) := by
  rw [step, h]

/-! ## What calls end with -/

/-- What the calls that are over by the end of steps ended with, in order. -/
def outcomes (console : Console) (steps : List Step) :
    List (Command × Option (Except CommandError Document)) :=
  (console.run steps).2.filterMap (·.finished)

theorem outcomes_cons (s : Step) :
    console.outcomes (s :: steps) =
      (console.step s).2.finished.toList ++ (console.step s).1.outcomes steps := by
  change List.filterMap _ ((console.step s).2 :: _) = _
  rw [List.filterMap_cons]
  cases (console.step s).2.finished <;> rfl

theorem outcomes_append (later : List Step) :
    console.outcomes (steps ++ later) =
      console.outcomes steps ++ (console.after steps).outcomes later := by
  induction steps generalizing console with
  | nil => rfl
  | cons s steps ih =>
    rw [List.cons_append, outcomes_cons, outcomes_cons, ih, List.append_assoc, after_cons]

/-- A call that is held to the end is not over. -/
theorem outcomes_of_held {console : Console} {steps : List Step} (h : .release ∉ steps) :
    console.outcomes steps = [] := by
  induction steps generalizing console with
  | nil => rfl
  | cons s steps ih =>
    obtain ⟨hs, hrest⟩ := List.ne_and_not_mem_of_not_mem_cons h
    rw [outcomes_cons, finished_of_ne_release console (Ne.symm hs), ih hrest]
    rfl

/-- Arrivals leave the call where it is. -/
theorem call_after_arrivals {console : Console} {steps : List Step}
    (h : ∀ s ∈ steps, s.isArrival) : (console.after steps).call = console.call := by
  induction steps generalizing console with
  | nil => rfl
  | cons s steps ih =>
    obtain ⟨hs, hrest⟩ := List.forall_mem_cons.mp h
    rw [after_cons, ih hrest]
    cases s with
    | deliver | disconnect => rfl
    | _ => cases hs

/-! ## The connection -/

/-- Nothing but its loss touches the connection. -/
theorem connected_transition {console next : Console} {s : Step} (ht : Transition console s next)
    (hs : s ≠ .disconnect) : next.slot.connected = console.slot.connected := by
  cases ht with
  | deliver response => exact Slot.offer_connected _ response
  | disconnect => exact absurd rfl hs
  | drain => exact Slot.drain_connected _
  | endWait => exact Slot.endWait_connected _
  | begin | wrote | writeFailed | release | notDue => rfl

/-- A connection that is lost on the way was given up on the way. -/
theorem disconnect_of_connected {console : Console} {steps : List Step}
    (held : console.slot.connected = true)
    (lost : (console.after steps).slot.connected = false) : .disconnect ∈ steps := by
  induction steps generalizing console with
  | nil => cases held.symm.trans lost
  | cons s steps ih =>
    by_cases hs : s = .disconnect
    · exact hs ▸ List.mem_cons_self
    · rw [after_cons] at lost
      have hnext := connected_transition (console.transition s) hs
      exact List.mem_cons_of_mem _ (ih (hnext.trans held) lost)

/-- A lost connection stays lost. -/
theorem lost_after {console : Console} (lost : console.slot.connected = false)
    (steps : List Step) : (console.after steps).slot.connected = false := by
  induction steps generalizing console with
  | nil => exact lost
  | cons s steps ih =>
    rw [after_cons]
    apply ih
    by_cases hs : s = .disconnect
    · rw [hs]
      rfl
    · rw [connected_transition (console.transition s) hs, lost]

/-! ## The window -/

/-- The window is open exactly while the call under way needs it. -/
def Windowed (console : Console) : Prop :=
  console.slot.awaiting = console.call.any (·.stage.isOpen)

/-- **Every step keeps the window where the call needs it.** -/
theorem Windowed.transition {console next : Console} {s : Step} (windowed : console.Windowed)
    (h : Transition console s next) : next.Windowed := by
  have window : console.slot.awaiting = console.call.any (·.stage.isOpen) := windowed
  cases h with
  | deliver response => exact (Slot.offer_awaiting _ response).trans window
  | disconnect => exact window
  | drain idle =>
    refine (Slot.drain_awaiting _).trans ?_
    rw [window, idle]
    rfl
  | begin _ => rfl
  | wrote opened =>
    refine window.trans ?_
    rw [opened]
    rfl
  | writeFailed opened =>
    refine window.trans ?_
    rw [opened]
    rfl
  | endWait written =>
    refine (Slot.endWait_awaiting _).trans ?_
    rw [window, written]
    rfl
  | release _ => rfl
  | notDue _ => exact window

/-- The window is where the call needs it, and the slot is empty when it is about to open. -/
structure Sound (console : Console) : Prop where
  /-- The window follows the call. -/
  windowed : console.Windowed
  /-- What was left over is thrown away. -/
  drained : ∀ command, console.call = some ⟨command, .drained⟩ → console.slot.pending = none

theorem sound_fresh (timeout : Duration) : (fresh timeout).Sound :=
  ⟨rfl, fun _ h => by cases h⟩

/-- **Every step keeps a console sound.** -/
theorem Sound.transition {console next : Console} {s : Step} (sound : console.Sound)
    (h : Transition console s next) : next.Sound := by
  refine ⟨sound.windowed.transition h, fun command hcall => ?_⟩
  cases h with
  | deliver response =>
    have hclosed : console.slot.awaiting = false := by
      rw [sound.windowed]
      exact hcall ▸ rfl
    rw [Slot.offer_closed response hclosed]
    exact sound.drained command hcall
  | drain _ => exact Slot.drain_pending _
  | disconnect | notDue => exact sound.drained command hcall
  | begin | wrote | writeFailed | endWait | release => cases hcall

theorem Sound.after {console : Console} (sound : console.Sound) (steps : List Step) :
    (console.after steps).Sound := by
  induction steps generalizing console with
  | nil => exact sound
  | cons s steps ih => exact ih (sound.transition (console.transition s))

/-- **Every console that a history leads to is sound.** -/
theorem sound_after_fresh (timeout : Duration) (steps : List Step) :
    ((fresh timeout).after steps).Sound := (sound_fresh timeout).after steps

/-- A console whose window just opened for a command. -/
def opened (timeout : Duration) (connected : Bool) (command : Command) : Console where
  slot := { awaiting := true, connected }
  timeout
  call := some ⟨command, .opened⟩

/-- **An opening window forgets the past**: all that is left of it is whether the connection is
still held. -/
theorem Sound.step_begin {console : Console} (sound : console.Sound) {command : Command}
    (h : console.call = some ⟨command, .drained⟩) :
    (console.step .begin).1 = opened console.timeout console.slot.connected command := by
  obtain ⟨⟨awaiting, pending, connected⟩, timeout, call⟩ := console
  have hpending : pending = none := sound.drained command h
  cases h
  rw [hpending]
  rfl

/-- No step changes how long a response is waited for. -/
theorem timeout_transition {console next : Console} {s : Step} (h : Transition console s next) :
    next.timeout = console.timeout := by
  cases h <;> rfl

@[simp] theorem timeout_after (console : Console) (steps : List Step) :
    (console.after steps).timeout = console.timeout := by
  induction steps generalizing console with
  | nil => rfl
  | cons s steps ih => rw [after_cons, ih, timeout_transition (console.transition s)]

end Console

end CavityConsole

import CavityConsole.Proofs.Dispatch.Delivery
import CavityConsole.Proofs.Dispatch.Verdict
import Mathlib.Data.List.Forall2

/-!
# The calls of a dispatcher over time

A dispatcher is used by registering listeners and dispatching lines, in any order. A run of such
uses (`run`) keeps, line by line, the calls that were made and what became of the line; the calls
are written down as the listeners receive them.

**The law** (`turns_run`): the calls of a line are those of its verdict, to the listeners registered
before the line. A listener that breaks down ends the calls of that one line; when none does, the
calls of a run are those of its lines, one line after the other.

What was called for a line is settled when the line has been dispatched: a longer run begins with
the same calls.
-/

namespace CavityConsole.Dispatcher

variable {ν ρ σ : Type}

/-- A use of a dispatcher. -/
inductive Action (ν ρ : Type) where
  | notificationListener (listener : ν)
  | responseListener (listener : ρ)
  | line (text : String)

/-- What happened for one line: the calls that were made, in order, and what became of it. -/
structure Turn (ν ρ : Type) where
  made : List (Delivery ν ρ)
  outcome : LineOutcome

/-- A dispatcher in use, the state around it, and what happened for the lines so far. -/
structure Use (ν ρ σ : Type) where
  dispatcher : Dispatcher ν ρ := {}
  state : σ
  turns : List (Turn ν ρ) := []

/-- Listeners that also write their calls down, those that break down too. -/
def watched (hear : σ → Delivery ν ρ → Except σ σ) (seen : σ × List (Delivery ν ρ))
    (call : Delivery ν ρ) : Except (σ × List (Delivery ν ρ)) (σ × List (Delivery ν ρ)) :=
  match hear seen.1 call with
  | .ok state => .ok (state, seen.2 ++ [call])
  | .error state => .error (state, seen.2 ++ [call])

section

variable (note : σ → LogEntry → σ) (hear : σ → Delivery ν ρ → Except σ σ)

/-- Dispatches a line, and writes the calls down. -/
def watchedLine (dispatcher : Dispatcher ν ρ) (state : σ) (text : String) :
    (σ × List (Delivery ν ρ)) × LineOutcome :=
  dispatcher.dispatchLine (fun seen entry => (note seen.1 entry, seen.2)) (watched hear) (state, [])
    text

/-- One use of a dispatcher. -/
def Use.act (use : Use ν ρ σ) : Action ν ρ → Use ν ρ σ
  | .notificationListener listener =>
    { use with dispatcher := use.dispatcher.addNotificationListener listener }
  | .responseListener listener =>
    { use with dispatcher := use.dispatcher.addResponseListener listener }
  | .line text =>
    let seen := watchedLine note hear use.dispatcher use.state text
    { use with state := seen.1.1, turns := use.turns ++ [⟨seen.1.2, seen.2⟩] }

/-- Uses one after the other, of a dispatcher without listeners. -/
def run (state : σ) (actions : List (Action ν ρ)) : Use ν ρ σ :=
  actions.foldl (Use.act note hear) { state }

end

/-! ## Which calls are expected -/

/-- The notification listeners that were registered, once for each registration. -/
def notificationListenersIn (actions : List (Action ν ρ)) : List ν :=
  actions.filterMap fun
    | .notificationListener listener => some listener
    | _ => none

/-- The response listeners that were registered, once for each registration. -/
def responseListenersIn (actions : List (Action ν ρ)) : List ρ :=
  actions.filterMap fun
    | .responseListener listener => some listener
    | _ => none

/-- The lines among some actions, each with all actions before it. -/
def linesBehind (before : List (Action ν ρ)) :
    List (Action ν ρ) → List (List (Action ν ρ) × String)
  | [] => []
  | .line text :: rest => (before, text) :: linesBehind (before ++ [.line text]) rest
  | action :: rest => linesBehind (before ++ [action]) rest

/-- The lines of a run, each with all actions before it. -/
def linesOf (actions : List (Action ν ρ)) : List (List (Action ν ρ) × String) :=
  linesBehind [] actions

/-- The calls for a line behind some actions. -/
def expected (spoken : List (Action ν ρ) × String) : List (Delivery ν ρ) :=
  (Verdict.ofLine spoken.2).calls (notificationListenersIn spoken.1) (responseListenersIn spoken.1)

/-- A dispatcher has the listeners that were registered by some actions, in their order. -/
structure Registered (dispatcher : Dispatcher ν ρ) (actions : List (Action ν ρ)) : Prop where
  notifications : dispatcher.notificationListeners.listeners = notificationListenersIn actions
  responses : dispatcher.responseListeners.listeners = responseListenersIn actions

/-- What happens for a line: the calls expected, up to a call that breaks down. -/
structure Follows (hear : σ → Delivery ν ρ → Except σ σ) (spoken : List (Action ν ρ) × String)
    (turn : Turn ν ρ) : Prop where
  /-- Only expected calls are made, in their order. -/
  begins : turn.made <+: expected spoken
  /-- All of them are made unless a listener breaks down. -/
  whole : turn.outcome ≠ .brokeDown → turn.made = expected spoken
  /-- A line is refused exactly when it is no document. -/
  refused : ∀ error, turn.outcome = .refused error ↔ Document.ofLine spoken.2 = .error error
  /-- No line breaks down when the listeners return. -/
  returned : Returns hear → turn.outcome ≠ .brokeDown

/-! ## One line -/

/-- The calls of listeners that are watched: a beginning of the calls to make, and all of them when
none breaks down. -/
theorem makeCalls_watched (hear : σ → Delivery ν ρ → Except σ σ) (state : σ)
    (done calls : List (Delivery ν ρ)) :
    ∃ made, (makeCalls (watched hear) (state, done) calls).1.2 = done ++ made ∧ made <+: calls ∧
      ((makeCalls (watched hear) (state, done) calls).2 = true → made = calls) ∧
      (Returns hear → (makeCalls (watched hear) (state, done) calls).2 = true) := by
  induction calls generalizing state done with
  | nil => exact ⟨[], (List.append_nil done).symm, List.nil_prefix, fun _ => rfl, fun _ => rfl⟩
  | cons call calls ih =>
    cases hcall : hear state call with
    | error after =>
      have hwatched : watched hear (state, done) call = .error (after, done ++ [call]) := by
        rw [watched, hcall]
      rw [makeCalls, hwatched]
      refine ⟨[call], rfl, ⟨calls, rfl⟩, fun hcomplete => (by cases hcomplete), fun returns => ?_⟩
      obtain ⟨next, hnext⟩ := returns state call
      rw [hcall] at hnext
      cases hnext
    | ok after =>
      have hwatched : watched hear (state, done) call = .ok (after, done ++ [call]) := by
        rw [watched, hcall]
      rw [makeCalls, hwatched]
      obtain ⟨made, hmade, hbegins, hwhole, hreturns⟩ := ih after (done ++ [call])
      refine ⟨call :: made, ?_, List.cons_prefix_cons.mpr ⟨rfl, hbegins⟩, ?_, hreturns⟩
      · rw [hmade, List.append_assoc, List.singleton_append]
      · intro hcomplete
        rw [hwhole hcomplete]

/-- Logging is no call. -/
theorem foldl_note_watched (note : σ → LogEntry → σ) (entries : List LogEntry) (state : σ)
    (done : List (Delivery ν ρ)) :
    entries.foldl (fun seen entry => (note seen.1 entry, seen.2)) (state, done) =
      (entries.foldl note state, done) :=
  List.foldl_hom (fun after => (after, done)) fun _ _ => rfl

/-- **One line**: its calls go to the listeners that the dispatcher has. -/
theorem follows_watchedLine (note : σ → LogEntry → σ) (hear : σ → Delivery ν ρ → Except σ σ)
    {dispatcher : Dispatcher ν ρ} {before : List (Action ν ρ)} (h : Registered dispatcher before)
    (state : σ) (text : String) :
    Follows hear (before, text)
      ⟨(watchedLine note hear dispatcher state text).1.2,
        (watchedLine note hear dispatcher state text).2⟩ := by
  unfold watchedLine
  cases hline : Document.ofLine text with
  | error error =>
    have hnothing : expected (before, text) = [] := by
      rw [expected, Verdict.ofLine, hline]
      rfl
    rw [dispatcher.dispatchLine_of_error _ hline]
    refine ⟨List.nil_prefix, fun _ => hnothing.symm, fun other => ?_, fun _ => ?_⟩
    · rw [hline, LineOutcome.refused.injEq, Except.error.injEq]
    · intro hbroke
      cases hbroke
  | ok document =>
    have hcalls : dispatcher.calls (Routing.ofDocument document).1 = expected (before, text) := by
      rw [Verdict.calls_ofDocument, h.notifications, h.responses, expected,
        Verdict.ofLine_of_document hline]
    obtain ⟨made, hmade, hbegins, hwhole, hreturns⟩ := makeCalls_watched hear
      ((Routing.ofDocument document).2.foldl note state) [] (expected (before, text))
    rw [dispatchLine, hline]
    simp only [foldl_note_watched, hcalls]
    rw [List.nil_append] at hmade
    have hrefused : ∀ complete error,
        (if complete = true then LineOutcome.dispatched else .brokeDown) ≠ .refused error := by
      intro complete error
      cases complete
      all_goals
        intro h
        cases h
    refine ⟨hmade ▸ hbegins, fun hwent => ?_, fun error => ?_, fun returns => ?_⟩
    · refine hmade.trans (hwhole ?_)
      by_contra hbroke
      exact hwent (if_neg hbroke)
    · rw [hline]
      exact ⟨fun h => absurd h (hrefused _ error), fun h => (by cases h)⟩
    · rw [hreturns returns]
      intro h
      cases h

/-! ## A run -/

section

variable (note : σ → LogEntry → σ) (hear : σ → Delivery ν ρ → Except σ σ)

/-- What is registered by a use is there behind it; a line registers nothing. -/
theorem Registered.act {use : Use ν ρ σ} {before : List (Action ν ρ)}
    (h : Registered use.dispatcher before) (action : Action ν ρ) :
    Registered (use.act note hear action).dispatcher (before ++ [action]) := by
  obtain ⟨hn, hr⟩ := h
  constructor
  · rw [notificationListenersIn, List.filterMap_append, ← notificationListenersIn, ← hn]
    cases action with
    | notificationListener listener => rfl
    | responseListener listener => exact (List.append_nil _).symm
    | line text => exact (List.append_nil _).symm
  · rw [responseListenersIn, List.filterMap_append, ← responseListenersIn, ← hr]
    cases action with
    | notificationListener listener => exact (List.append_nil _).symm
    | responseListener listener => rfl
    | line text => exact (List.append_nil _).symm

/-- Uses of a dispatcher add to what is registered and to the turns, one turn for each line. The
induction is on the uses to come, with those before as the accumulator. -/
theorem turns_foldl (actions : List (Action ν ρ)) (use : Use ν ρ σ) (before : List (Action ν ρ))
    (h : Registered use.dispatcher before) :
    Registered (actions.foldl (Use.act note hear) use).dispatcher (before ++ actions) ∧
      ∃ turns, (actions.foldl (Use.act note hear) use).turns = use.turns ++ turns ∧
        List.Forall₂ (Follows hear) (linesBehind before actions) turns := by
  induction actions generalizing use before with
  | nil => exact ⟨(List.append_nil before).symm ▸ h, [], (List.append_nil _).symm, .nil⟩
  | cons action actions ih =>
    obtain ⟨hregistered, turns, hturns, hfollow⟩ := ih _ _ (h.act note hear action)
    rw [List.append_assoc, List.singleton_append] at hregistered
    refine ⟨hregistered, ?_⟩
    cases action with
    | notificationListener listener => exact ⟨turns, hturns, hfollow⟩
    | responseListener listener => exact ⟨turns, hturns, hfollow⟩
    | line text =>
      refine ⟨_ :: turns, ?_, .cons (follows_watchedLine note hear h use.state text) hfollow⟩
      rw [List.foldl_cons, hturns]
      show (use.turns ++ [_]) ++ turns = _
      rw [List.append_assoc, List.singleton_append]

theorem registered_none : Registered ({} : Dispatcher ν ρ) [] := ⟨rfl, rfl⟩

theorem registered_run (state : σ) (actions : List (Action ν ρ)) :
    Registered (run note hear state actions).dispatcher actions :=
  (turns_foldl note hear actions _ [] registered_none).1

/-- Without a breakdown the calls of the turns are all that were expected. -/
theorem flatMap_made {hear : σ → Delivery ν ρ → Except σ σ} (returns : Returns hear)
    {lines : List (List (Action ν ρ) × String)} {turns : List (Turn ν ρ)}
    (h : List.Forall₂ (Follows hear) lines turns) :
    turns.flatMap (·.made) = lines.flatMap expected := by
  induction h with
  | nil => rfl
  | cons hfollow _ ih =>
    rw [List.flatMap_cons, List.flatMap_cons, ih, hfollow.whole (hfollow.returned returns)]

/-- **The complete trace of deliveries.** Line by line, the calls made are those of the one verdict
of the line, to the listeners registered before it; when the listeners return, the calls of a run
are these calls, line after line. Only what is no document is refused, and what comes later takes
nothing back. -/
theorem turns_run (state : σ) (actions : List (Action ν ρ)) :
    List.Forall₂ (Follows hear) (linesOf actions) (run note hear state actions).turns ∧
      (Returns hear →
        (run note hear state actions).turns.flatMap (·.made) =
          (linesOf actions).flatMap expected) ∧
      (∀ more, (run note hear state actions).turns <+:
        (run note hear state (actions ++ more)).turns) ∧
      ∀ line verdict, Verdict.Of line verdict ↔ Verdict.ofLine line = verdict := by
  obtain ⟨-, turns, hturns, hfollow⟩ := turns_foldl note hear actions { state } [] registered_none
  have hrun : (run note hear state actions).turns = turns := hturns
  rw [hrun]
  refine ⟨hfollow, fun returns => flatMap_made returns hfollow, fun more => ?_, Verdict.of_iff⟩
  obtain ⟨-, later, hlater, -⟩ := turns_foldl note hear more (run note hear state actions) actions
    (registered_run note hear state actions)
  rw [hrun, run, ← List.foldl_append] at hlater
  exact ⟨later, hlater.symm⟩

end

/-- Listeners that are registered between lines of different kinds; one is registered twice. -/
def mixedActions : List (Action String String) :=
  [.line "\x7b\"response\":\"ok\"\x7d",
   .notificationListener "first",
   .line "[]",
   .responseListener "second",
   .responseListener "second",
   .line "\x7b\"response\":null,\"notification\":true\x7d",
   .notificationListener "third",
   .line "\x7b\"notification\":true\x7d",
   .line "\x7b\x7d"]

theorem turns_run_mixed :
    (run (fun state _ => state) (fun state _ => .ok state) () mixedActions).turns.flatMap (·.made) =
      [.response "second" [("notification", .boolean true), ("response", .null)],
       .response "second" [("notification", .boolean true), ("response", .null)],
       .notification "first" (.errorStatus unparseableMessage),
       .notification "third" (.errorStatus unparseableMessage),
       .notification "first" (.errorStatus unrecognisedMessage),
       .notification "third" (.errorStatus unrecognisedMessage)] := by
  have hearly : Document.ofLine "\x7b\"response\":\"ok\"\x7d" =
      .ok [("response", .string "ok")] := by cbv
  have hlist : Document.ofLine "[]" = .error (.notAnObject "array") := by cbv
  have hboth : Document.ofLine "\x7b\"response\":null,\"notification\":true\x7d" =
      .ok [("notification", .boolean true), ("response", .null)] := by cbv
  have hflag : Document.ofLine "\x7b\"notification\":true\x7d" =
      .ok [("notification", .boolean true)] := by cbv
  have hempty : Document.ofLine "\x7b\x7d" = .ok [] := by cbv
  have hread : Notification.ofDocument [("notification", .boolean true)] =
      .error (.wrongType "notification" .string "boolean") := rfl
  rw [(turns_run _ _ () mixedActions).2.1 fun state _ => ⟨state, rfl⟩]
  simp [mixedActions, linesOf, linesBehind, expected, notificationListenersIn, responseListenersIn,
    Verdict.ofLine, Verdict.ofDocument, Verdict.calls, Members.contains, Members.get?, hearly, hlist,
    hboth, hflag, hempty, hread]

end CavityConsole.Dispatcher

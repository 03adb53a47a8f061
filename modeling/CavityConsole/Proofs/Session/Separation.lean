import CavityConsole.Proofs.Session.Feeding

/-!
# Responses and notifications do not interfere

Lines arrive at a console between the steps of its calls. A line has a part for the console, the
response on it, or a part for the notification listeners, a document that is no response, and never
both. Turns without a part for one side can be left out or put in anywhere, and that side is none
the wiser.

**The law** (`turns_separate`): two histories that agree in their parts for the console leave the
same console, with the same outcomes of its calls and the same entries in its log; two histories
that agree in their parts for the notification listeners call these in the same way.

For each side there is a relation between two scenes that look the same to it. One turn keeps the
relation, whether the turn has a part for that side or not (`played_served`, `played_alike`); a
history then is related to its parts alone (`foldl_parts`).

Listeners may break down: that ends the calls for the one document, on this side only.
-/

namespace CavityConsole

open Transport

variable {ν τ : Type}

/-- A console, the listeners beside it, and what was observed of both. -/
structure Scene (ν τ : Type) where
  /-- The state around the listeners; their log is part of it. -/
  around : τ
  /-- The calls of notification listeners, in order. -/
  heard : List (ν × Notification) := []
  console : Console
  /-- What the steps of the console gave, log entries and outcomes of calls, in order. -/
  effects : List Console.Effect := []

/-- Something that happens in a scene: a step of the console, or a line that is dispatched. -/
inductive Turn where
  | own (s : Console.Step)
  | line (text : String)

namespace Scene

/-- A step of the console. -/
def take (scene : Scene ν τ) (s : Console.Step) : Scene ν τ :=
  { scene with
    console := (scene.console.step s).1, effects := scene.effects ++ [(scene.console.step s).2] }

/-- An entry of the dispatcher in the log. -/
def noted (note : τ → LogEntry → τ) (scene : Scene ν τ) (entry : LogEntry) : Scene ν τ :=
  { scene with around := note scene.around entry }

/-- A call of a listener: a response is a step of the console, and `heed` is what a notification
does; on an `error` the listener broke down. -/
def called (heed : τ → ν → Notification → Except τ τ) (scene : Scene ν τ) :
    Delivery ν Unit → Except (Scene ν τ) (Scene ν τ)
  | .response _ document => .ok (scene.take (.deliver document))
  | .notification listener n =>
    let heard := scene.heard ++ [(listener, n)]
    match heed scene.around listener n with
    | .ok around => .ok { scene with around, heard }
    | .error around => .error { scene with around, heard }

section

variable (listeners : List ν) (note : τ → LogEntry → τ) (heed : τ → ν → Notification → Except τ τ)

/-- A document is logged about and its calls are made. -/
def dispatched (scene : Scene ν τ) (document : Document) : Scene ν τ :=
  (Dispatcher.makeCalls (called heed)
    ((Routing.ofDocument document).2.foldl (noted note) scene)
    ((feeding listeners).calls (Routing.ofDocument document).1)).1

/-- What happens in a scene. -/
def played (scene : Scene ν τ) : Turn → Scene ν τ
  | .own s => scene.take s
  | .line text => ((feeding listeners).dispatchLine (noted note) (called heed) scene text).1

end

end Scene

namespace Turn

/-- The part of a turn for the console: a step of its own, or the response on a line. -/
def forConsole : Turn → Option Console.Step
  | .own s => some s
  | .line text => (responseOf text).map .deliver

/-- The part of a turn for the notification listeners: a document that is no response. -/
def forListeners : Turn → Option Document
  | .own _ => none
  | .line text =>
    match Document.ofLine text with
    | .ok document => if Members.contains document "response" then none else some document
    | .error _ => none

end Turn

/-! ## Leaving out what has no part -/

/-- A history comes to the same as its parts, when one turn does. -/
theorem foldl_parts {S A B : Type} {R : S → S → Prop} {play : S → A → S} {act : S → B → S}
    {part : A → Option B}
    (hstep : ∀ s s' a, R s s' → R (play s a) ((part a).elim s' (act s'))) (turns : List A)
    {s s' : S} (h : R s s') : R (turns.foldl play s) ((turns.filterMap part).foldl act s') := by
  induction turns generalizing s s' with
  | nil => exact h
  | cons a turns ih =>
    have hnext := hstep s s' a h
    rw [List.foldl_cons, List.filterMap_cons]
    cases hpart : part a with
    | none =>
      rw [hpart] at hnext
      exact ih hnext
    | some b =>
      rw [hpart] at hnext
      exact ih hnext

namespace Scene

variable (listeners : List ν) (note : τ → LogEntry → τ) (heed : τ → ν → Notification → Except τ τ)

theorem played_line {text : String} {document : Document}
    (h : Document.ofLine text = .ok document) (scene : Scene ν τ) :
    scene.played listeners note heed (.line text) =
      scene.dispatched listeners note heed document := by
  rw [played, Dispatcher.dispatchLine, h]
  rfl

theorem played_line_of_error {text : String} {error : DecodeError}
    (h : Document.ofLine text = .error error) (scene : Scene ν τ) :
    scene.played listeners note heed (.line text) = scene := by
  rw [played, Dispatcher.dispatchLine_of_error _ _ h]

/-- A response is a step of the console, and nothing else. -/
theorem dispatched_response {document : Document}
    (h : Members.contains document "response" = true) (scene : Scene ν τ) :
    scene.dispatched listeners note heed document = scene.take (.deliver document) := by
  rw [dispatched, Routing.ofDocument, if_pos h]
  rfl

/-- Any other document is none of the console's business: no response listener is called. -/
theorem calls_of_other {document : Document} (h : ¬ Members.contains document "response" = true) :
    ∀ call ∈ (feeding listeners).calls (Routing.ofDocument document).1,
      ∃ listener n, call = .notification listener n := by
  have hnotified : ∀ n, ∀ call ∈ (feeding listeners).calls (.notifications n),
      ∃ listener n, call = .notification listener n := by
    intro n call hcall
    obtain ⟨listener, -, rfl⟩ := List.mem_map.mp hcall
    exact ⟨listener, n, rfl⟩
  rw [Routing.ofDocument, if_neg h]
  split
  · split
    · exact hnotified _
    · split
      · intro call hcall
        cases hcall
      · exact hnotified _
  · exact hnotified _

/-! ## The console's side -/

/-- Two scenes look the same to the console. -/
def Served (scene other : Scene ν τ) : Prop :=
  scene.console = other.console ∧ scene.effects = other.effects

theorem served_refl (scene : Scene ν τ) : Served scene scene := ⟨rfl, rfl⟩

variable {scene other : Scene ν τ}

theorem Served.take (h : Served scene other) (s : Console.Step) :
    Served (scene.take s) (other.take s) := by
  obtain ⟨hconsole, heffects⟩ := h
  unfold Served Scene.take
  rw [hconsole, heffects]
  exact ⟨rfl, rfl⟩

theorem served_noted (h : Served scene other) (entries : List LogEntry) :
    Served (entries.foldl (noted note) scene) other := by
  induction entries generalizing scene with
  | nil => exact h
  | cons entry entries ih => exact ih h

theorem served_makeCalls {calls : List (Delivery ν Unit)}
    (hcalls : ∀ call ∈ calls, ∃ listener n, call = .notification listener n)
    (h : Served scene other) :
    Served (Dispatcher.makeCalls (called heed) scene calls).1 other := by
  induction calls generalizing scene with
  | nil => exact h
  | cons call calls ih =>
    obtain ⟨hcall, hrest⟩ := List.forall_mem_cons.mp hcalls
    obtain ⟨listener, n, rfl⟩ := hcall
    rw [Dispatcher.makeCalls, called]
    cases heed scene.around listener n with
    | ok around => exact ih hrest h
    | error around => exact h

/-- **One turn, for the console.** Only its part for the console counts. -/
theorem played_served (scene other : Scene ν τ) (turn : Turn) (h : Served scene other) :
    Served (scene.played listeners note heed turn) (turn.forConsole.elim other other.take) := by
  cases turn with
  | own s => exact h.take s
  | line text =>
    cases hline : Document.ofLine text with
    | error error =>
      rw [played_line_of_error listeners note heed hline, Turn.forConsole, responseOf, hline]
      exact h
    | ok document =>
      rw [played_line listeners note heed hline, Turn.forConsole, responseOf, hline]
      dsimp only
      by_cases hresponse : Members.contains document "response"
      · rw [if_pos hresponse, dispatched_response listeners note heed hresponse]
        exact h.take (.deliver document)
      · rw [if_neg hresponse]
        exact served_makeCalls heed (calls_of_other listeners hresponse) (served_noted note h _)

/-! ## The listeners' side -/

/-- Two scenes look the same to the notification listeners. -/
def Alike (scene other : Scene ν τ) : Prop :=
  scene.around = other.around ∧ scene.heard = other.heard

theorem alike_refl (scene : Scene ν τ) : Alike scene scene := ⟨rfl, rfl⟩

theorem alike_noted (h : Alike scene other) (entries : List LogEntry) :
    Alike (entries.foldl (noted note) scene) (entries.foldl (noted note) other) := by
  induction entries generalizing scene other with
  | nil => exact h
  | cons entry entries ih => exact ih ⟨congrArg (note · entry) h.1, h.2⟩

theorem alike_makeCalls {calls : List (Delivery ν Unit)}
    (hcalls : ∀ call ∈ calls, ∃ listener n, call = .notification listener n)
    (h : Alike scene other) :
    Alike (Dispatcher.makeCalls (called heed) scene calls).1
      (Dispatcher.makeCalls (called heed) other calls).1 := by
  induction calls generalizing scene other with
  | nil => exact h
  | cons call calls ih =>
    obtain ⟨hcall, hrest⟩ := List.forall_mem_cons.mp hcalls
    obtain ⟨listener, n, rfl⟩ := hcall
    obtain ⟨haround, hheard⟩ := h
    rw [Dispatcher.makeCalls, called, Dispatcher.makeCalls, called, haround, hheard]
    cases heed other.around listener n with
    | ok around => exact ih hrest ⟨rfl, rfl⟩
    | error around => exact ⟨rfl, rfl⟩

/-- **One turn, for the listeners.** Only its part for the listeners counts. -/
theorem played_alike (scene other : Scene ν τ) (turn : Turn) (h : Alike scene other) :
    Alike (scene.played listeners note heed turn)
      (turn.forListeners.elim other (other.dispatched listeners note heed)) := by
  cases turn with
  | own s => exact h
  | line text =>
    cases hline : Document.ofLine text with
    | error error =>
      rw [played_line_of_error listeners note heed hline, Turn.forListeners, hline]
      exact h
    | ok document =>
      rw [played_line listeners note heed hline, Turn.forListeners, hline]
      dsimp only
      by_cases hresponse : Members.contains document "response"
      · rw [if_pos hresponse, dispatched_response listeners note heed hresponse]
        exact h
      · rw [if_neg hresponse]
        exact alike_makeCalls heed (calls_of_other listeners hresponse) (alike_noted note h _)

/-! ## Histories -/

/-- **Responses and notifications do not interfere.** Histories that agree in the steps of the
console and the responses, in their order, leave the same console and give the same outcomes and log
entries of it. Histories that agree in the documents that are no responses make the same calls of
the notification listeners. -/
theorem turns_separate (scene : Scene ν τ) (turns others : List Turn) :
    (turns.filterMap Turn.forConsole = others.filterMap Turn.forConsole →
        Served (turns.foldl (played listeners note heed) scene)
          (others.foldl (played listeners note heed) scene)) ∧
      (turns.filterMap Turn.forListeners = others.filterMap Turn.forListeners →
        Alike (turns.foldl (played listeners note heed) scene)
          (others.foldl (played listeners note heed) scene)) := by
  constructor
  · intro hparts
    obtain ⟨hconsole, heffects⟩ :=
      foldl_parts (played_served listeners note heed) turns (served_refl scene)
    obtain ⟨hconsole', heffects'⟩ :=
      foldl_parts (played_served listeners note heed) others (served_refl scene)
    rw [hparts] at hconsole heffects
    exact ⟨hconsole.trans hconsole'.symm, heffects.trans heffects'.symm⟩
  · intro hparts
    obtain ⟨haround, hheard⟩ :=
      foldl_parts (played_alike listeners note heed) turns (alike_refl scene)
    obtain ⟨haround', hheard'⟩ :=
      foldl_parts (played_alike listeners note heed) others (alike_refl scene)
    rw [hparts] at haround hheard
    exact ⟨haround.trans haround'.symm, hheard.trans hheard'.symm⟩

/-- A call with lines of every kind between its steps; its response looks like a notification
too. -/
def busyTurns : List Turn :=
  [.own (.drain .version), .line "\x7b\"notification\":\"paused\"\x7d", .own .begin,
   .line "\x7b\"notification\":\"paused\",\"response\":\"ok\"\x7d", .own .wrote, .line "\x7b\x7d",
   .own .endWait, .own .release]

/-- The same call and its response alone. -/
def quietTurns : List Turn :=
  [.own (.drain .version), .own .begin,
   .line "\x7b\"response\":\"ok\",\"notification\":\"paused\"\x7d", .own .wrote, .own .endWait,
   .own .release]

/-- The same notifications, with other responses and no call. -/
def idleTurns : List Turn :=
  [.line "\x7b\"notification\":\"paused\"\x7d", .line "\x7b\"response\":false\x7d",
   .line "\x7b\x7d"]

/-- A scene in which the second call of a listener breaks down. -/
def brittle (turns : List Turn) : Scene Unit Nat :=
  turns.foldl
    (played [()] (fun count _ => count) fun count _ _ =>
      if count = 0 then .ok (count + 1) else .error count)
    { around := 0, console := { timeout := Console.defaultTimeout } }

theorem turns_separate_busy :
    busyTurns.filterMap Turn.forConsole = quietTurns.filterMap Turn.forConsole ∧
      busyTurns.filterMap Turn.forListeners = idleTurns.filterMap Turn.forListeners ∧
      Served (brittle busyTurns) (brittle quietTurns) ∧
      Alike (brittle busyTurns) (brittle idleTurns) := by
  have hnotification : Document.ofLine "\x7b\"notification\":\"paused\"\x7d" =
      .ok [("notification", .string "paused")] := by cbv
  have hboth : Document.ofLine "\x7b\"notification\":\"paused\",\"response\":\"ok\"\x7d" =
      .ok [("notification", .string "paused"), ("response", .string "ok")] := by cbv
  have hturned : Document.ofLine "\x7b\"response\":\"ok\",\"notification\":\"paused\"\x7d" =
      .ok [("notification", .string "paused"), ("response", .string "ok")] := by cbv
  have hrefused : Document.ofLine "\x7b\"response\":false\x7d" =
      .ok [("response", .boolean false)] := by cbv
  have hempty : Document.ofLine "\x7b\x7d" = .ok [] := by cbv
  have hconsole : busyTurns.filterMap Turn.forConsole = quietTurns.filterMap Turn.forConsole := by
    simp [busyTurns, quietTurns, Turn.forConsole, responseOf, Members.contains, Members.get?,
      hnotification, hboth, hturned, hempty]
  have hlisteners :
      busyTurns.filterMap Turn.forListeners = idleTurns.filterMap Turn.forListeners := by
    simp [busyTurns, idleTurns, List.filterMap_cons, Turn.forListeners, Members.contains,
      Members.get?, hnotification, hboth, hrefused, hempty]
  exact ⟨hconsole, hlisteners, (turns_separate _ _ _ _ busyTurns quietTurns).1 hconsole,
    (turns_separate _ _ _ _ busyTurns idleTurns).2 hlisteners⟩

end Scene

end CavityConsole

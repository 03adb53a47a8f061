import CavityConsole.Console.Basic
import CavityConsole.Proofs.Transport.Reading

/-!
# What a reader does to a console

A reader hears lines and passes every response on to the slot; when it ends, it gives up its end of
the slot. All that a console sees of it is a list of steps.

**The law** (`readerSteps_eq`): these steps are the responses of the stream, in order, and then the
disconnection. They depend neither on the pieces in which the bytes arrive nor on the notifications
between them, the listeners for these or the way in which the reading ends.

**What it does not establish.** A listener that breaks down ends the reading before its time; the
law is about listeners that return.
-/

namespace CavityConsole

open Transport

variable {ν τ : Type}

/-- The response on a line, if it carries one. -/
def responseOf (line : String) : Option Document :=
  match Document.ofLine line with
  | .ok document => if Members.contains document "response" then some document else none
  | .error _ => none

/-- The responses of a stream: those on the lines that are dispatched, in order. -/
def responses (limit : Nat) (bytes : List UInt8) : List Document :=
  (dispatchable limit bytes).filterMap responseOf

/-- The listeners of a connection: any for notifications, the slot of the console for responses. -/
def feeding (listeners : List ν) : Dispatcher ν Unit where
  notificationListeners := ⟨listeners⟩
  responseListeners := ⟨[()]⟩

/-- A log entry is none of the console's business. -/
def noteBeside (note : τ → LogEntry → τ) (state : τ × List Console.Step) (entry : LogEntry) :
    τ × List Console.Step := (note state.1 entry, state.2)

/-- A call of a listener: `heed` is what a notification does to the state around the reader, a
response is a step of the console. -/
def feed (heed : τ → ν → Notification → τ) (state : τ × List Console.Step) :
    Delivery ν Unit → Except (τ × List Console.Step) (τ × List Console.Step)
  | .notification listener notification => .ok (heed state.1 listener notification, state.2)
  | .response _ document => .ok (state.1, state.2 ++ [.deliver document])

/-- All that a console sees of a reader, from its first read to its end. -/
def readerSteps (limit : Nat) (listeners : List ν) (note : τ → LogEntry → τ)
    (heed : τ → ν → Notification → τ) (state : τ) (reads : List Read) : List Console.Step :=
  (readLines limit ((feeding listeners).dispatchLine (noteBeside note) (feed heed)) (state, [])
    reads).1.2 ++ [.disconnect]

variable (listeners : List ν) (note : τ → LogEntry → τ) (heed : τ → ν → Notification → τ)

theorem feed_returns : Dispatcher.Returns (feed heed) := by
  intro state call
  cases call with
  | notification listener notification => exact ⟨_, rfl⟩
  | response listener document => exact ⟨_, rfl⟩

/-- Log entries take no step. -/
theorem steps_noteBeside (state : τ × List Console.Step) (entries : List LogEntry) :
    (entries.foldl (noteBeside note) state).2 = state.2 := by
  induction entries generalizing state with
  | nil => rfl
  | cons entry entries ih => exact ih (noteBeside note state entry)

/-- Notifications take no step. -/
theorem steps_notifications (state : τ × List Console.Step) (notification : Notification) :
    (((feeding listeners).calls (.notifications notification)).foldl
      (Dispatcher.after (feed heed)) state).2 = state.2 := by
  induction listeners generalizing state with
  | nil => rfl
  | cons listener listeners ih => exact ih (heed state.1 listener notification, state.2)

/-- A document takes a step of the console exactly when it is a response. -/
theorem steps_calls (document : Document) (state : τ × List Console.Step) :
    ((((feeding listeners).calls (Routing.ofDocument document).1).foldl
        (Dispatcher.after (feed heed)) state).2) =
      state.2 ++ if Members.contains document "response" then [.deliver document] else [] := by
  by_cases hresponse : Members.contains document "response"
  · rw [Routing.ofDocument, if_pos hresponse, if_pos hresponse]
    rfl
  · rw [Routing.ofDocument, if_neg hresponse, if_neg hresponse, List.append_nil]
    split
    · split
      · exact steps_notifications listeners heed state _
      · split
        · rfl
        · exact steps_notifications listeners heed state _
    · exact steps_notifications listeners heed state _

/-- A line takes a step of the console exactly when it carries a response. -/
theorem steps_dispatchLine (state : τ × List Console.Step) (line : String) :
    ((feeding listeners).dispatchLine (noteBeside note) (feed heed) state line).1.2 =
      state.2 ++ (responseOf line).toList.map .deliver := by
  cases hdocument : Document.ofLine line with
  | error error =>
    rw [Dispatcher.dispatchLine_of_error _ _ hdocument, responseOf, hdocument]
    exact (List.append_nil _).symm
  | ok document =>
    rw [Dispatcher.dispatchLine_of_returns _ _ (feed_returns heed) hdocument, responseOf, hdocument]
    dsimp only
    rw [steps_calls, steps_noteBeside]
    split <;> rfl

/-- Lines take the steps of the responses on them. -/
theorem steps_dispatchAll (state : τ × List Console.Step) (lines : List String) :
    (dispatchAll (feeding listeners) (noteBeside note) (feed heed) state lines).2 =
      state.2 ++ (lines.filterMap responseOf).map .deliver := by
  induction lines generalizing state with
  | nil => exact (List.append_nil _).symm
  | cons line lines ih =>
    rw [dispatchAll, List.foldl_cons]
    have hrest := ih ((feeding listeners).dispatchLine (noteBeside note) (feed heed) state line).1
    rw [dispatchAll] at hrest
    rw [hrest, steps_dispatchLine, List.filterMap_cons]
    cases responseOf line with
    | none => simp
    | some document => simp

/-- **A console sees the responses of the stream and then the end**, whatever else there is. -/
theorem readerSteps_eq (limit : Nat) (state : τ) (reads : List Read) (calm : Undisturbed reads) :
    readerSteps limit listeners note heed state reads =
      (responses limit (content reads)).map .deliver ++ [.disconnect] := by
  rw [readerSteps, readLines_eq_readWhole _ _ _ _ calm,
    readWhole_dispatch _ _ (feed_returns heed), steps_dispatchAll]
  rfl

end CavityConsole

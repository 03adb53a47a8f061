import CavityConsole.Dispatch.Dispatcher

/-!
# Recording listeners

A recording listener writes down what it is called with, under its name. It may be set to break down
on one of its calls, which it still writes down. All listeners of a `Recording` write into the same
list, so the order of their calls can be read off it.
-/

namespace CavityConsole

/-- A recording listener. -/
structure Recorder where
  /-- The name under which it writes. -/
  name : String
  /-- The call on which it breaks down, counted from one. -/
  breaksOn : Option Nat := none
deriving DecidableEq

/-- What a recording listener wrote down. -/
inductive Heard where
  /-- A notification. -/
  | notification (listener : String) (notification : Notification)
  /-- A response. -/
  | response (listener : String) (document : Document)

/-- The listener's name and what it was called with. -/
def Heard.text : Heard → String
  | .notification listener n => listener ++ ": " ++ n.text
  | .response listener document => listener ++ ": " ++ document.compact

/-- Whether a notification listener wrote this down. -/
def Heard.isNotificationOf (name : String) : Heard → Bool
  | .notification listener _ => listener == name
  | .response .. => false

/-- What recording listeners wrote down, and what was logged meanwhile. -/
structure Recording where
  /-- The calls, in order. -/
  calls : List Heard := []
  /-- The log, in order. -/
  log : List LogEntry := []

namespace Recording

/-- Adds an entry to the log. -/
def note (recording : Recording) (entry : LogEntry) : Recording :=
  { recording with log := recording.log ++ [entry] }

/-- Writes down a call. -/
def write (recording : Recording) (call : Heard) : Recording :=
  { recording with calls := recording.calls ++ [call] }

/-- How many notifications a listener wrote down. -/
def count (recording : Recording) (name : String) : Nat :=
  recording.calls.countP (·.isNotificationOf name)

/-- Calls a recording listener. -/
def hear (recording : Recording) :
    Delivery Recorder Recorder → Except Recording Recording
  | .response listener document => .ok (recording.write (.response listener.name document))
  | .notification listener notification =>
    let recording := recording.write (.notification listener.name notification)
    if listener.breaksOn = some (recording.count listener.name) then .error recording
    else .ok recording

/-- Dispatches a line to recording listeners. -/
def dispatchLine (dispatcher : Dispatcher Recorder Recorder) (recording : Recording)
    (line : String) : Recording × LineOutcome :=
  dispatcher.dispatchLine note hear recording line

end Recording

end CavityConsole

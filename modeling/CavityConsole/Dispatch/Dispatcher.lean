import CavityConsole.Dispatch.Registry
import CavityConsole.Protocol.Log

/-!
# From lines to listeners

A document with a `response` member goes to the response listeners as it is, whatever else it holds.
Otherwise one with a `notification` member goes to the notification listeners, decoded. What cannot
be understood is logged, and the notification listeners are told so by an error status; a
notification of an unknown type is only logged.

A dispatcher decides who is called with what; `Dispatcher.deliver` carries the calls out one after
the other. A listener that breaks down ends the delivery of that one document.
-/

namespace CavityConsole

/-- The status for a document that is neither a response nor a notification. -/
def unrecognisedMessage : String := "Server protocol not understood (unrecognized message)"

/-- The status for a notification that could not be decoded. -/
def unparseableMessage : String :=
  "Server protocol not understood (unable to parse server message)"

/-- Whom a document is for. -/
inductive Routing where
  /-- The response listeners. -/
  | responses (document : Document)
  /-- The notification listeners. -/
  | notifications (notification : Notification)
  /-- Nobody. -/
  | nobody

/-- Whom a document is for, and what is logged about it. -/
def Routing.ofDocument (document : Document) : Routing × List LogEntry :=
  if Members.contains document "response" then (.responses document, [])
  else if Members.contains document "notification" then
    match Notification.ofDocument document with
    | .ok notification => (.notifications notification, [])
    | .error error =>
      if error.isUnknownType then (.nobody, [.unknownNotification error])
      else (.notifications (.errorStatus unparseableMessage), [.invalidNotification error])
  else (.notifications (.errorStatus unrecognisedMessage), [.unrecognised document])

/-- One call of a listener. -/
inductive Delivery (ν ρ : Type) where
  /-- A notification listener is called. -/
  | notification (listener : ν) (notification : Notification)
  /-- A response listener is called. -/
  | response (listener : ρ) (document : Document)

/-- The listeners of a connection. -/
structure Dispatcher (ν ρ : Type) where
  /-- The notification listeners. -/
  notificationListeners : Registry ν := {}
  /-- The response listeners. -/
  responseListeners : Registry ρ := {}

/-- What became of a line. -/
inductive LineOutcome where
  /-- It was dispatched. -/
  | dispatched
  /-- It is no document. -/
  | refused (error : DecodeError)
  /-- A listener broke down. -/
  | brokeDown
deriving DecidableEq

namespace Dispatcher

variable {ν ρ σ : Type}

/-- Registers a notification listener. -/
def addNotificationListener (dispatcher : Dispatcher ν ρ) (listener : ν) : Dispatcher ν ρ :=
  { dispatcher with notificationListeners := dispatcher.notificationListeners.register listener }

/-- Registers a response listener. -/
def addResponseListener (dispatcher : Dispatcher ν ρ) (listener : ρ) : Dispatcher ν ρ :=
  { dispatcher with responseListeners := dispatcher.responseListeners.register listener }

/-- The calls that a routing makes, in order. -/
def calls (dispatcher : Dispatcher ν ρ) : Routing → List (Delivery ν ρ)
  | .responses document => dispatcher.responseListeners.listeners.map (.response · document)
  | .notifications notification =>
    dispatcher.notificationListeners.listeners.map (.notification · notification)
  | .nobody => []

/-- Makes calls in order. `hear` is what a call does to the state around it; on an `error` the
listener broke down, and the calls after it are not made. -/
def makeCalls (hear : σ → Delivery ν ρ → Except σ σ) : σ → List (Delivery ν ρ) → σ × Bool
  | state, [] => (state, true)
  | state, call :: rest =>
    match hear state call with
    | .ok state => makeCalls hear state rest
    | .error state => (state, false)

/-- Dispatches a line: `note` logs an entry, `hear` is what a call does. -/
def dispatchLine (dispatcher : Dispatcher ν ρ) (note : σ → LogEntry → σ)
    (hear : σ → Delivery ν ρ → Except σ σ) (state : σ) (line : String) : σ × LineOutcome :=
  match Document.ofLine line with
  | .error error => (state, .refused error)
  | .ok document =>
    let (routing, entries) := Routing.ofDocument document
    let (state, complete) :=
      makeCalls hear (entries.foldl note state) (dispatcher.calls routing)
    (state, if complete then .dispatched else .brokeDown)

end Dispatcher

end CavityConsole

import CavityConsole.Protocol.Log

/-!
# The place where a response waits

Responses carry nothing that tells which command they answer, so a response is taken for the answer
to the command that is outstanding when it arrives. The slot between the connection and the console
has room for one response and a window that is open while a command is outstanding. Offered a
response, it refuses it when the window is closed or a response is there already; both are logged.

The connection holds the feeding end of the slot. When that end is gone, a command that waits for an
empty slot is interrupted, but a response that was accepted before can still be taken.
-/

namespace CavityConsole

/-- Room for one response. -/
structure Slot where
  /-- A command is outstanding. -/
  awaiting : Bool := false
  /-- The response that was accepted and not yet taken. -/
  pending : Option Document := none
  /-- The connection still holds its end. -/
  connected : Bool := true
deriving Inhabited

namespace Slot

/-- A response arrives. -/
def offer (slot : Slot) (response : Document) : Slot × List LogEntry :=
  if !slot.awaiting then (slot, [.idleResponse response])
  else
    match slot.pending with
    | some _ => (slot, [.surplusResponse response])
    | none => ({ slot with pending := some response }, [])

/-- Throws away what is left over; gives how many responses that were. -/
def drain (slot : Slot) : Slot × Nat × List LogEntry :=
  match slot.pending with
  | none => (slot, 0, [])
  | some response => ({ slot with pending := none }, 1, [.strayResponse response])

/-- Opens the window. -/
def openWindow (slot : Slot) : Slot := { slot with awaiting := true }

/-- Closes the window. -/
def closeWindow (slot : Slot) : Slot := { slot with awaiting := false }

/-- The connection gives up its end. -/
def disconnect (slot : Slot) : Slot := { slot with connected := false }

/-- What a wait for a response ends with. -/
inductive WaitResult where
  /-- A response. -/
  | received (response : Document)
  /-- There is no response, and none can come any more. -/
  | disconnected
  /-- There is no response in time. -/
  | timedOut

/-- Ends a wait: a response that is there is taken, whatever else happened. -/
def endWait (slot : Slot) : Slot × WaitResult :=
  match slot.pending with
  | some response => ({ slot with pending := none }, .received response)
  | none => (slot, if slot.connected then .timedOut else .disconnected)

end Slot

end CavityConsole

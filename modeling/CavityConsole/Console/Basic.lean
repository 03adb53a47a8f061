import CavityConsole.Console.Command
import CavityConsole.Console.Error
import CavityConsole.Console.Slot

/-!
# The console

A console issues one command at a time. A call goes through fixed steps: it drains the slot, opens
the window, writes the line, waits for a response, and closes the window again. Between any two of
these steps responses may arrive and the connection may go away; `Console.step` says what each of
them does. A whole call is a run of such steps, and so is any history of calls.

A response is accepted exactly when its `response` member is the string `ok`. Otherwise the command
was rejected, and the string in the `message` member, if there is one, says why.
-/

namespace CavityConsole

/-- Tells an accepted command from a rejected one. -/
def classify (command : String) (response : Document) : Except CommandError Document :=
  match Members.get? response "response" with
  | some (.string "ok") => .ok response
  | _ => .error (.rejected command ((Members.get? response "message").bind Json.string?))

/-- How far a call has come. -/
inductive CallStage where
  /-- The slot is drained. -/
  | drained
  /-- The window is open. -/
  | opened
  /-- The line is written. -/
  | written
  /-- The outcome is known, the window still open. -/
  | decided (outcome : Except CommandError Document)

/-- A call under way. -/
structure Call where
  /-- Its command. -/
  command : Command
  /-- How far it has come. -/
  stage : CallStage

/-- A console: its slot, how long it waits, and the call under way. -/
structure Console where
  /-- Where responses wait. -/
  slot : Slot := {}
  /-- How long a response is waited for. -/
  timeout : Duration
  /-- The call under way, if there is one. -/
  call : Option Call := none

namespace Console

/-- How long a response is waited for unless something else is asked. -/
def defaultTimeout : Duration := .ofSeconds 5

/-- What can happen to a console. -/
inductive Step where
  /-- A call begins and drains the slot. -/
  | drain (command : Command)
  /-- The window opens. -/
  | begin
  /-- The line was written. -/
  | wrote
  /-- The line could not be written. -/
  | writeFailed (reason : String)
  /-- The wait for a response ends. -/
  | endWait
  /-- The window closes, and the call is over. -/
  | release
  /-- A response arrives. -/
  | deliver (response : Document)
  /-- The connection gives up its end of the slot. -/
  | disconnect

/-- What a step gives besides the console: log entries, and the outcome of a call that is over. -/
structure Effect where
  /-- Entries for the log. -/
  log : List LogEntry := []
  /-- A call that is over. A call that broke down has no outcome. -/
  finished : Option (Command × Option (Except CommandError Document)) := none

/-- The entries of draining the slot for a command. -/
def drainEntries (command : Command) (discarded : Nat) (strays : List LogEntry) : List LogEntry :=
  if discarded = 0 then strays else strays ++ [.recovered command.name discarded]

/-- The outcome of a wait. -/
def waitOutcome (console : Console) (command : Command) :
    Slot.WaitResult → Except CommandError Document
  | .received response => classify command.name response
  | .disconnected => .error (.interrupted command.name)
  | .timedOut => .error (.timeout command.name console.timeout)

/-- What happens to a console. A step of a call that is not due changes nothing. -/
def step (console : Console) : Step → Console × Effect
  | .deliver response =>
    let (slot, entries) := console.slot.offer response
    ({ console with slot }, { log := entries })
  | .disconnect => ({ console with slot := console.slot.disconnect }, {})
  | .drain command =>
    match console.call with
    | some _ => (console, {})
    | none =>
      let (slot, discarded, strays) := console.slot.drain
      ({ console with slot, call := some ⟨command, .drained⟩ },
       { log := drainEntries command discarded strays })
  | .begin =>
    match console.call with
    | some ⟨command, .drained⟩ =>
      ({ console with slot := console.slot.openWindow, call := some ⟨command, .opened⟩ }, {})
    | _ => (console, {})
  | .wrote =>
    match console.call with
    | some ⟨command, .opened⟩ => ({ console with call := some ⟨command, .written⟩ }, {})
    | _ => (console, {})
  | .writeFailed reason =>
    match console.call with
    | some ⟨command, .opened⟩ =>
      ({ console with call := some ⟨command, .decided (.error (.send command.name reason))⟩ }, {})
    | _ => (console, {})
  | .endWait =>
    match console.call with
    | some ⟨command, .written⟩ =>
      let (slot, result) := console.slot.endWait
      ({ console with
          slot, call := some ⟨command, .decided (waitOutcome console command result)⟩ }, {})
    | _ => (console, {})
  | .release =>
    match console.call with
    | some ⟨command, .decided outcome⟩ =>
      ({ console with slot := console.slot.closeWindow, call := none },
       { finished := some (command, some outcome) })
    | some ⟨command, .opened⟩ =>
      ({ console with slot := console.slot.closeWindow, call := none },
       { finished := some (command, none) })
    | _ => (console, {})

/-- A run of steps, with all that they give in order. -/
def run : Console → List Step → Console × List Effect
  | console, [] => (console, [])
  | console, s :: rest =>
    let (console, effect) := console.step s
    let (console, effects) := run console rest
    (console, effect :: effects)

end Console

end CavityConsole

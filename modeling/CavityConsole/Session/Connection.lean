import CavityConsole.Console.Basic
import CavityConsole.Dispatch.Recorder
import CavityConsole.Transport.Reader

/-!
# A console on a connection

On a connection the feeding end of the console's slot is the one response listener, and any number
of notification listeners stand beside it. The connection holds both, and letting go of it lets go
of the feeding end for good.

`Connection.receiveLine` is what one inbound line does. A run of a command on a connection is
`Connection.call`: what arrives while the line is being written is given as a list of actions.
-/

namespace CavityConsole

/-- Something that can be observed at a connection. -/
inductive ConnectionEvent where
  /-- A line went out. -/
  | sent (line : String)
  /-- A notification listener was called. -/
  | heard (listener : String) (notification : Notification)
  /-- An inbound line was no document. -/
  | refused (error : DecodeError)
  /-- A line came in after the connection was let go of. -/
  | unconnected

/-- A console and the listeners on its connection. -/
structure Connection where
  /-- The console. -/
  console : Console
  /-- The listeners, while the connection is held; the slot of the console listens for responses. -/
  dispatcher : Option (Dispatcher Recorder Unit)
  /-- What was observed, in order. -/
  events : List ConnectionEvent := []
  /-- The log, in order. -/
  log : List LogEntry := []

namespace Connection

/-- A fresh connection with the given notification listeners. -/
def start (timeout : Duration) (listeners : List Recorder) : Connection where
  console := { timeout }
  dispatcher := some { notificationListeners := ⟨listeners⟩, responseListeners := ⟨[()]⟩ }

/-- Adds an entry to the log. -/
def note (connection : Connection) (entry : LogEntry) : Connection :=
  { connection with log := connection.log ++ [entry] }

/-- Adds an observation. -/
def observe (connection : Connection) (event : ConnectionEvent) : Connection :=
  { connection with events := connection.events ++ [event] }

/-- A step of the console, with its log entries. -/
def step (connection : Connection) (s : Console.Step) : Connection × Console.Effect :=
  let (console, effect) := connection.console.step s
  ({ connection with console, log := connection.log ++ effect.log }, effect)

/-- How often a notification listener was called. -/
def countHeard (connection : Connection) (name : String) : Nat :=
  connection.events.countP fun
    | .heard listener _ => listener == name
    | _ => false

/-- A call of one of the listeners. -/
def hear (connection : Connection) : Delivery Recorder Unit → Except Connection Connection
  | .response _ document => .ok (connection.step (.deliver document)).1
  | .notification listener notification =>
    let connection := connection.observe (.heard listener.name notification)
    if listener.breaksOn = some (connection.countHeard listener.name) then .error connection
    else .ok connection

/-- An inbound line. Without a held connection nobody hears it. -/
def receiveLine (connection : Connection) (line : String) : Connection × LineOutcome :=
  match connection.dispatcher with
  | none => (connection, .dispatched)
  | some dispatcher => dispatcher.dispatchLine note hear connection line

/-- The connection is let go of. -/
def letGo (connection : Connection) : Connection :=
  { (connection.step .disconnect).1 with dispatcher := none }

/-! ## Commands against a scripted server -/

/-- Something that happens at a connection from outside. -/
inductive Action where
  /-- The server sends a line. -/
  | line (text : String)
  /-- The connection is let go of. -/
  | letGo
  /-- Writing fails. -/
  | fail (reason : String)
  /-- Writing breaks down. -/
  | breakDown

/-- How the writing of a line ends. -/
inductive WriteResult where
  /-- The line was written. -/
  | written
  /-- Writing failed. -/
  | failed (reason : String)
  /-- Writing broke down. -/
  | brokeDown

/-- A line of a scripted server, observed when it is no document or nobody can hear it. -/
def scriptedLine (connection : Connection) (text : String) : Connection :=
  if connection.dispatcher.isNone then connection.observe .unconnected
  else
    match connection.receiveLine text with
    | (connection, .refused error) => connection.observe (.refused error)
    | (connection, _) => connection

/-- Carries out actions up to the first one that ends the writing. -/
def perform : Connection → List Action → Connection × WriteResult
  | connection, [] => (connection, .written)
  | connection, .line text :: rest => perform (connection.scriptedLine text) rest
  | connection, .letGo :: rest => perform connection.letGo rest
  | connection, .fail reason :: _ => (connection, .failed reason)
  | connection, .breakDown :: _ => (connection, .brokeDown)

/-- The steps of a call that follow the writing of its line. -/
def stepsAfter : WriteResult → List Console.Step
  | .written => [.wrote, .endWait]
  | .failed reason => [.writeFailed reason]
  | .brokeDown => []

/-- Issues a command; the actions happen while its line is being written. There is no outcome when
the writing broke down. -/
def call (connection : Connection) (command : Command) (actions : List Action) :
    Connection × Option (Except CommandError Document) :=
  let connection := (connection.step (.drain command)).1
  let connection := (connection.step .begin).1
  let (connection, result) := (connection.observe (.sent command.line)).perform actions
  let connection :=
    (stepsAfter result).foldl (fun connection s => (connection.step s).1) connection
  let (connection, effect) := connection.step .release
  (connection, effect.finished.bind (·.2))

end Connection

end CavityConsole

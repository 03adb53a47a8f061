import CavityConsole.Json.Printer
import CavityConsole.Notification.Decoding
import CavityConsole.Transport.Error

/-!
# The log

What goes wrong without stopping anything is logged. An entry is kept as the fact it states, with
the documents and errors it is about; level, target, message and fields are read off it.
-/

namespace CavityConsole

/-- How serious an entry is. -/
inductive LogLevel where
  /-- Something unexpected that was put right. -/
  | warning
  /-- Something was lost or could not be understood. -/
  | error
deriving DecidableEq, Repr

/-- A fact worth logging. -/
inductive LogEntry where
  /-- A document is neither a response nor a notification. -/
  | unrecognised (document : Document)
  /-- A notification of an unknown type is left aside. -/
  | unknownNotification (error : NotificationError)
  /-- A notification could not be understood. -/
  | invalidNotification (error : NotificationError)
  /-- A response arrived while no command was outstanding. -/
  | idleResponse (response : Document)
  /-- A response arrived while another one was waiting to be taken. -/
  | surplusResponse (response : Document)
  /-- A response left over from earlier is thrown away before a command. -/
  | strayResponse (response : Document)
  /-- So many responses were thrown away before a command. -/
  | recovered (command : String) (discarded : Nat)
  /-- The connection is given up. -/
  | closing (error : TransportError)

namespace LogEntry

/-- How serious an entry is. -/
def level : LogEntry → LogLevel
  | .idleResponse _ | .recovered .. | .closing _ => .warning
  | _ => .error

/-- The part of the client that an entry is about. -/
def target : LogEntry → String
  | .unrecognised _ | .unknownNotification _ | .invalidNotification _ => "phaser_client::dispatcher"
  | .idleResponse _ | .surplusResponse _ | .strayResponse _ | .recovered .. =>
    "phaser_client::console"
  | .closing _ => "phaser_client::transport"

/-- The message of an entry. -/
def message : LogEntry → String
  | .unrecognised _ => "unrecognised message"
  | .unknownNotification _ => "dropping notification"
  | .invalidNotification _ => "unable to parse server notification"
  | .idleResponse _ => "discarding response received while no command is outstanding"
  | .surplusResponse _ => "discarding response: one is already pending"
  | .strayResponse _ => "discarding stray response"
  | .recovered .. => "recovered from unsolicited responses before sending"
  | .closing _ => "closing connection"

/-- The named fields of an entry; documents are written in compact form. -/
def fields : LogEntry → List (String × String)
  | .unrecognised document => [("document", document.compact)]
  | .unknownNotification error | .invalidNotification error => [("error", error.message)]
  | .idleResponse response | .surplusResponse response | .strayResponse response =>
    [("response", response.compact)]
  | .recovered command discarded =>
    [("command", command), ("discarded", String.ofList (Decimal.digitText discarded))]
  | .closing error => [("error", error.message)]

end LogEntry

end CavityConsole

import CavityConsole.Json.Basic
import CavityConsole.Time.Duration

/-!
# How a command fails

Every failure names its command and has a message fit for an operator. Nothing is tried again.
-/

namespace CavityConsole

/-- Why a command did not complete. -/
inductive CommandError where
  /-- The command could not be written. -/
  | send (command reason : String)
  /-- No response came in time. -/
  | timeout (command : String) (waited : Duration)
  /-- The server answered with something else than `ok`, and perhaps said why. -/
  | rejected (command : String) (reason : Option String)
  /-- The connection was closed before a response came. -/
  | interrupted (command : String)
  /-- A response lacks a field it needs. -/
  | missingField (command field : String)
  /-- A field of a response does not hold what it should. -/
  | invalidField (command field : String)
deriving DecidableEq

namespace CommandError

/-- The name of the command that failed. -/
def command : CommandError → String
  | .send command _ | .timeout command _ | .rejected command _ | .interrupted command
  | .missingField command _ | .invalidField command _ => command

/-- The wording of the failure. A rejection is worded by the server, if it does. -/
def message : CommandError → String
  | .send command reason => "unable to send '" ++ command ++ "' command: " ++ reason
  | .timeout command waited =>
    "no response received for '" ++ command ++ "' command within " ++ waited.text
  | .rejected _ reason => reason.getD "server rejected the command"
  | .interrupted command =>
    "no response received for '" ++ command ++ "' command: connection closed"
  | .missingField command field =>
    "response to '" ++ command ++ "' command is missing '" ++ field ++ "'"
  | .invalidField command field =>
    "response to '" ++ command ++ "' command has an invalid '" ++ field ++ "'"

/-- What the server said about a rejection. -/
def serverMessage : CommandError → Option String
  | .rejected _ reason => reason
  | _ => none

/-- Whether there was no response at all. -/
def isNoResponse : CommandError → Bool
  | .timeout .. | .interrupted _ => true
  | _ => false

end CommandError

end CavityConsole

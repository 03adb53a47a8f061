import CavityConsole.Job.ResultId
import CavityConsole.Job.Wire

/-!
# Commands

A command goes out as one line: a JSON object whose first member names the command. Two commands
carry something else, the job to start and the results whose corrections are applied. No line holds
a control character, so a newline behind each keeps them apart.
-/

namespace CavityConsole

/-- A command that the server understands. -/
inductive Command where
  /-- Ask for the version of the server. -/
  | version
  /-- Ask for the cavities that the server can phase. -/
  | cavities
  /-- Start a job. -/
  | start (job : Job)
  /-- Pause the running job. -/
  | pause
  /-- Resume the paused job. -/
  | resume
  /-- Stop the running job. -/
  | stop
  /-- Skip the current cavity. -/
  | skip
  /-- Apply the corrections of stored results. -/
  | applyCorrections (results : List ResultId)
deriving DecidableEq

namespace Command

/-- The name of a command on the wire. -/
def name : Command → String
  | .version => "version"
  | .cavities => "cavities"
  | .start _ => "start"
  | .pause => "pause"
  | .resume => "resume"
  | .stop => "stop"
  | .skip => "skip"
  | .applyCorrections _ => "apply-corrections"

/-- What a command carries besides its name. -/
def payload : Command → List (String × List Char)
  | .start job => [("job", job.wireText)]
  | .applyCorrections results => [("results", Json.arrayText (results.map ResultId.text))]
  | _ => []

/-- The line of a command, without its newline. -/
def line (command : Command) : String :=
  String.ofList <|
    Json.objectText (("command", Json.stringText command.name) :: command.payload)

/-- What goes out on a connection for a command: its line with the newline behind it. -/
def sent (command : Command) : ByteArray := (command.line ++ "\n").toUTF8

end Command

end CavityConsole

import CavityConsole.Job.Input
import CavityConsole.Session.Basic
import CavityConsole.Settings.Loading

/-!
# Why a request fails

A request that was understood may fail for the configuration, for the connection, for the server,
for what was typed, or for the output.
-/

namespace CavityConsole

/-- Why a request fails. -/
inductive RunError where
  /-- The settings cannot be loaded. -/
  | configuration (error : LoadError)
  /-- The log filter is not well formed. -/
  | logFilter
  /-- There is no session. -/
  | session (error : SessionError)
  /-- A command failed. -/
  | command (error : CommandError)
  /-- What was typed is no job. -/
  | job (error : Job.InputError)
  /-- The server has no such cavity. -/
  | unknownCavity (name : String)
  /-- The connection ended with an error. -/
  | connection (error : TransportError)
  /-- Reading from the connection broke down. -/
  | readerBroken
  /-- The output cannot be written. -/
  | output (reason : String)
deriving DecidableEq

/-- The wording of a failure. -/
def RunError.message : RunError → String
  | .configuration error => "failed to load configuration: " ++ error.message
  | .logFilter => "invalid log filter: invalid filter directive"
  | .session error => "failed to open session: " ++ error.message
  | .command error => error.command ++ " failed: " ++ error.message
  | .job error => "invalid job: " ++ error.message
  | .unknownCavity name => "unknown cavity " ++ name
  | .connection error => "connection to the server failed: " ++ error.message
  | .readerBroken => "connection reader stopped unexpectedly"
  | .output reason => "failed to write output: " ++ reason

end CavityConsole

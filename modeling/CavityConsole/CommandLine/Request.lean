import CavityConsole.Job.Input
import CavityConsole.Job.ResultId

/-!
# What a command line asks for

A command line asks for one operation of the console, or to watch what the server sends.
-/

namespace CavityConsole

/-- The arguments of a start: the numbers as they were typed, and the cavities either by name or all
of them. -/
structure StartArguments where
  /-- Apply corrections rather than only measure. -/
  correct : Bool := false
  /-- Start over until stopped. -/
  continuous : Bool := false
  /-- The maximum phase error. -/
  maxPhaseError : String := ""
  /-- The maximum momentum error. -/
  maxMomentumError : String := ""
  /-- The samples per kick. -/
  kickSamples : String := ""
  /-- Take every cavity that the server lists. -/
  allCavities : Bool := false
  /-- The cavities by name. -/
  cavities : List String := []
deriving DecidableEq

/-- What is typed for a job with the given cavities. -/
def StartArguments.input (arguments : StartArguments) (cavities : List String) : Job.Input where
  correct := arguments.correct
  continuous := arguments.continuous
  maxPhaseError := arguments.maxPhaseError
  maxMomentumError := arguments.maxMomentumError
  kickSamples := arguments.kickSamples
  cavities := cavities

/-- An operation of the console. -/
inductive Operation where
  /-- Print the version of the server. -/
  | version
  /-- Print the cavities of the server. -/
  | cavities
  /-- Start a job. -/
  | start (arguments : StartArguments)
  /-- Pause the job. -/
  | pause
  /-- Resume the job. -/
  | resume
  /-- Stop the job. -/
  | stop
  /-- Skip a cavity. -/
  | skip
  /-- Apply the corrections of stored results. -/
  | applyCorrections (results : List ResultId)
deriving DecidableEq

/-- What a command line asks for. -/
inductive Request where
  /-- One operation. -/
  | operate (operation : Operation)
  /-- Print notifications until the connection ends. -/
  | watch
deriving DecidableEq

end CavityConsole

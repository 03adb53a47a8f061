import CavityConsole.CommandLine.Error
import CavityConsole.CommandLine.Output
import CavityConsole.CommandLine.Reading
import CavityConsole.Settings.LogFilter

/-!
# Carrying out a command line

A command line that is understood loads the settings, opens a session and carries out its request. A
command is sent only when everything that has to be known for it is known: the session is open, and
a job names cavities of the server only. What a command prints is printed when the server has
accepted it. Whatever fails first is the one thing reported.

Watching prints every notification from the first byte of the connection on, in order, and is fine
when the connection was closed.
-/

namespace CavityConsole

/-- The names that a start asks for, seen from the cavities of the server. -/
def StartArguments.candidates (arguments : StartArguments) (known : CavityList) : List String :=
  if arguments.allCavities then known.names else arguments.cavities

/-- The job of a start. A name that is no cavity of the server is reported before any number is
looked at. -/
def StartArguments.job (arguments : StartArguments) (known : CavityList) : Except RunError Job :=
  let candidates := arguments.candidates known
  match candidates.find? (!known.contains ·) with
  | some name => .error (.unknownCavity name)
  | none => (Job.ofInput (arguments.input candidates)).mapError .job

/-! ## One operation -/

/-- How far a request has come: its session, its output, and how it ended. -/
structure Progress where
  /-- The session. -/
  session : Session
  /-- The output. -/
  output : Output
  /-- The outcome. -/
  outcome : Except RunError Unit

/-- Prints what a command that was accepted prints. -/
def Progress.print (session : Session) (output : Output)
    (outcome : Except CommandError (List String)) : Progress :=
  match outcome with
  | .error error => ⟨session, output, .error (.command error)⟩
  | .ok pieces =>
    let (output, written) := output.write pieces
    ⟨session, output, written.mapError .output⟩

/-- Issues a command and prints something when it is accepted. -/
def Session.issue (session : Session) (server : Server) (output : Output) (command : Command)
    (pieces : List String) : Progress :=
  let (session, outcome) := session.acknowledge server command
  .print session output (outcome.map fun _ => pieces)

/-- Carries out an operation. -/
def Session.operate (session : Session) (server : Server) (output : Output) :
    Operation → Progress
  | .version =>
    let (session, outcome) := session.askVersion server
    .print session output (outcome.map versionPieces)
  | .cavities =>
    let (session, outcome) := session.askCavities server
    .print session output (outcome.map cavityPieces)
  | .start arguments =>
    match arguments.job session.cavities with
    | .error error => ⟨session, output, .error error⟩
    | .ok job => session.issue server output (.start job) (startedPieces job)
  | .pause => session.issue server output .pause (acceptedPieces "pause")
  | .resume => session.issue server output .resume (acceptedPieces "resume")
  | .stop => session.issue server output .stop (acceptedPieces "stop")
  | .skip => session.issue server output .skip (acceptedPieces "skip")
  | .applyCorrections results =>
    session.issue server output (.applyCorrections results) (appliedPieces results)

/-! ## Watching -/

/-- The listener that prints. -/
def watcher : Recorder := { name := "watch" }

/-- Whether the end of reading is a failure. -/
def ReaderExit.outcome : ReaderExit → Except RunError Unit
  | .closed => .ok ()
  | .failed error => .error (.connection error)
  | .brokenDown => .error .readerBroken

/-- Prints what was heard and what is still heard until reading ends. -/
def Session.watch (session : Session) (output : Output) (later : List Arrival) : Progress :=
  let (session, exit) := session.wait later
  match output.write (notificationPieces (session.heard watcher.name)) with
  | (output, .error reason) => ⟨session, output, .error (.output reason)⟩
  | (output, .ok ()) => ⟨session, output, exit.outcome⟩

/-! ## Whole runs -/

/-- What a run of the program meets. -/
structure World where
  /-- What paths lead to. -/
  files : String → FileState := fun _ => .missing
  /-- The variables of the environment in their order. -/
  environment : List (String × String) := []
  /-- Whether the log filter is looked at; it is when the log is set up. -/
  setsUpLog : Bool := true
  /-- The server that is reached with given settings. -/
  reach : SessionSettings → Except SessionError Server
  /-- What the server sends unasked once a session is open. -/
  later : List Arrival := []
  /-- The end of the place where output is written. -/
  outputLimit : Option OutputLimit := none

/-- What a run leaves behind. -/
structure RunResult where
  /-- The exit code. -/
  exitCode : Nat
  /-- What was printed. -/
  stdout : String := ""
  /-- What was reported. -/
  stderr : String := ""
  /-- The commands that the server received. -/
  received : List Command := []
deriving DecidableEq

namespace World

/-- The settings of a run. -/
def settings (world : World) (arguments : List Argument) : Except RunError Settings := do
  let settings ←
    match arguments.mapM Argument.text? with
    | none => .error (.configuration .invalidFlags)
    | some arguments =>
      let sources : Sources := { files := world.files, environment := world.environment, arguments }
      sources.load.mapError .configuration
  if world.setsUpLog ∧ !LogFilter.isValid settings.logFilter then throw .logFilter
  return settings

/-- Carries out a request with given settings. -/
def serve (world : World) (settings : SessionSettings) (request : Request) :
    Output × List Command × Except RunError Unit :=
  let output : Output := { limit := world.outputLimit }
  match world.reach settings with
  | .error error => (output, [], .error (.session error))
  | .ok server =>
    let (caches, cache) := CavityCaches.fresh {}
    let listeners :=
      match request with
      | .watch => [watcher]
      | .operate _ => []
    match Session.openWith settings listeners caches cache server with
    | (session, .error error) => (output, session.received, .error (.session error))
    | (session, .ok ()) =>
      let progress :=
        match request with
        | .watch => session.watch output world.later
        | .operate operation => session.operate server output operation
      (progress.output, progress.session.received, progress.outcome)

/-- Runs the program. -/
def run (world : World) (arguments : List Argument) : RunResult :=
  let parts := SplitArguments.ofArguments arguments
  match Request.ofArguments parts.command.tail with
  | .error (.help line) => { exitCode := 0, stdout := line ++ "\n" }
  | .error (.error error) => { exitCode := 2, stderr := error.message ++ "\n" }
  | .ok request =>
    match world.settings parts.configuration.tail with
    | .error error => { exitCode := 1, stderr := error.message ++ "\n" }
    | .ok settings =>
      match world.serve settings.session request with
      | (output, received, .ok ()) => { exitCode := 0, stdout := output.text, received }
      | (output, received, .error error) =>
        { exitCode := 1, stdout := output.text, stderr := error.message ++ "\n", received }

end World

end CavityConsole

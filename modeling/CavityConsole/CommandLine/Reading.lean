import CavityConsole.CommandLine.Grammar
import CavityConsole.CommandLine.Request

/-!
# Reading the command

The first argument names the command, and the others are its own. In front of the command only a
request for help can stand, and behind `--` no command is taken for one.
-/

namespace CavityConsole

/-- The answer to a command line that gives no request. -/
inductive UsageAnswer where
  /-- The help that was asked for. -/
  | help (line : String)
  /-- What is wrong. -/
  | error (error : UsageError)
deriving DecidableEq

namespace CommandName

/-- The maximum phase error of a start. -/
def maxPhaseError : NamedArgument := ⟨"max-phase-error", some "DEGREES"⟩

/-- The maximum momentum error of a start. -/
def maxMomentumError : NamedArgument := ⟨"max-momentum-error", some "FRACTION"⟩

/-- The samples per kick of a start. -/
def kickSamples : NamedArgument := ⟨"kick-samples", some "COUNT"⟩

/-- Apply corrections rather than only measure. -/
def correct : NamedArgument := ⟨"correct", none⟩

/-- Start over until stopped. -/
def continuous : NamedArgument := ⟨"continuous", none⟩

/-- Take every cavity that the server lists. -/
def allCavities : NamedArgument := ⟨"all-cavities", none⟩

/-- The cavities of a start. -/
def cavityPlace : PlacedArguments where
  shown := "[CAVITY]..."
  check argument := if argument.text?.isNone then some .invalidUtf8 else none

/-- The results whose corrections are applied. -/
def resultPlace : PlacedArguments where
  shown := "<RESULT_ID>..."
  check argument :=
    match argument.text? with
    | none => some .invalidUtf8
    | some text =>
      match ResultId.read text with
      | .ok _ => none
      | .error error => some (.invalidValue text "<RESULT_ID>..." error)

/-- The arguments that a command knows. -/
def grammar : CommandName → Grammar
  | .start =>
    { named := [correct, continuous, maxPhaseError, maxMomentumError, kickSamples, allCavities]
      placed := some cavityPlace }
  | .applyCorrections => { placed := some resultPlace }
  | _ => {}

end CommandName

namespace Request

open CommandName

/-- A start from the arguments that were read. Naming cavities beside asking for all of them is
reported before anything that is missing. -/
def ofStart (read : ReadArguments) : Except UsageError StartArguments :=
  let places := [allCavities.shown, cavityPlace.shown]
  match read.seen.find? places.contains, places.all read.hasSeen with
  | some first, true =>
    .error (.conflict first (if first = allCavities.shown then cavityPlace.shown
      else allCavities.shown))
  | _, _ =>
    if [maxPhaseError, maxMomentumError, kickSamples].all (read.hasSeen ·.shown) then
      .ok {
        correct := read.hasSeen correct.shown
        continuous := read.hasSeen continuous.shown
        maxPhaseError := read.valueOf maxPhaseError
        maxMomentumError := read.valueOf maxMomentumError
        kickSamples := read.valueOf kickSamples
        allCavities := read.hasSeen allCavities.shown
        cavities := read.placed.filterMap Argument.text? }
    else .error .missingArguments

/-- The results that were read. -/
def ofResults (read : ReadArguments) : Except UsageError (List ResultId) :=
  let results := read.placed.filterMap fun argument =>
    argument.text?.bind fun text => (ResultId.read text).toOption
  if results.isEmpty then .error .missingArguments else .ok results

/-- The request that a command and the arguments read for it are. -/
def ofRead (name : CommandName) (read : ReadArguments) : Except UsageError Request :=
  match name with
  | .version => .ok (.operate .version)
  | .cavities => .ok (.operate .cavities)
  | .start => (ofStart read).map fun arguments => .operate (.start arguments)
  | .pause => .ok (.operate .pause)
  | .resume => .ok (.operate .resume)
  | .stop => .ok (.operate .stop)
  | .skip => .ok (.operate .skip)
  | .applyCorrections => (ofResults read).map fun results => .operate (.applyCorrections results)
  | .watch => .ok .watch

/-- The answer to an end of reading within a command or in front of it. -/
def stopAnswer (help : String) : UsageStop → UsageAnswer
  | .help => .help help
  | .error e => .error e

/-- The command that an argument names. -/
def command? (argument : Argument) : Option CommandName := argument.text?.bind CommandName.ofText?

/-- Whether an argument looks like a named one. -/
def looksNamed (argument : Argument) : Bool :=
  argument.bytes.head? = some ReadArguments.dash && 1 < argument.bytes.length

/-- The answer to arguments that do not start with a command. -/
def headAnswer (argument : Argument) (rest : List Argument) : UsageAnswer :=
  if looksNamed argument then
    match ReadArguments.readOne {} {} argument with
    | .error ending => stopAnswer programHelp ending
    | .ok _ =>
      match rest with
      | [] => .error .noCommand
      | next :: _ =>
        if (command? next).isSome then .error (.unexpectedArgument next.shown)
        else .error (.unknownCommand next.shown)
  else .error (.unknownCommand argument.shown)

/-- The request of a command line without the name of the program. -/
def ofArguments : List Argument → Except UsageAnswer Request
  | [] => .error (.error .noCommand)
  | argument :: rest =>
    match command? argument with
    | none => .error (headAnswer argument rest)
    | some name => do
      let read ← (ReadArguments.ofArguments name.grammar rest).mapError (stopAnswer name.help)
      (ofRead name read).mapError .error

end Request

end CavityConsole

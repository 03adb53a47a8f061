import CavityConsole.CommandLine.Split
import CavityConsole.CommandLine.Usage

/-!
# Arguments of a command

A command knows flags, options with a value, and perhaps arguments that stand by their place. They
may come in any order; behind `--` every argument stands by its place. Asking for help ends the
reading.

Values are looked at only when the next named argument begins or the arguments end. So an option
without a value is noticed there, and a value that is wrong is not noticed when an unknown argument
follows it.
-/

namespace CavityConsole

/-- A named argument of a command. -/
structure NamedArgument where
  /-- The name behind the two dashes. -/
  name : String
  /-- What its value is called, if it has one. -/
  valueName : Option String := none
deriving DecidableEq, Repr

/-- A named argument as messages show it. -/
def NamedArgument.shown (argument : NamedArgument) : String :=
  match argument.valueName with
  | none => "--" ++ argument.name
  | some value => "--" ++ argument.name ++ " <" ++ value ++ ">"

/-- The arguments that stand by their place. -/
structure PlacedArguments where
  /-- How messages show them. -/
  shown : String
  /-- What is wrong with one of them, if anything is. -/
  check : Argument → Option UsageError

/-- What arguments a command knows. -/
structure Grammar where
  /-- The named ones. -/
  named : List NamedArgument := []
  /-- Those that stand by their place. -/
  placed : Option PlacedArguments := none

/-- The end of reading arguments before all are read. -/
inductive UsageStop where
  /-- Help is asked for. -/
  | help
  /-- Something is wrong. -/
  | error (error : UsageError)
deriving DecidableEq

/-- Arguments whose values are not yet looked at. -/
inductive PendingArgument where
  /-- None. -/
  | nothing
  /-- An option, perhaps with its value. -/
  | option (argument : NamedArgument) (value : Option Argument)
  /-- Arguments that stand by their place. -/
  | placed (arguments : List Argument)

/-- The arguments that are read. -/
structure ReadArguments where
  /-- What was named, or the place that was taken, in order. -/
  seen : List String := []
  /-- The values of options. -/
  values : List (NamedArgument × String) := []
  /-- The arguments that stand by their place. -/
  placed : List Argument := []
  /-- Those whose values are not yet looked at. -/
  pending : PendingArgument := .nothing
  /-- Whether `--` was met. -/
  trailing : Bool := false

namespace ReadArguments

/-- Notes that something was named. -/
def see (read : ReadArguments) (shown : String) : ReadArguments :=
  { read with seen := read.seen ++ [shown] }

/-- Whether something was named. -/
def hasSeen (read : ReadArguments) (shown : String) : Bool := read.seen.contains shown

/-- The value of an option. -/
def valueOf (read : ReadArguments) (argument : NamedArgument) : String :=
  (read.values.lookup argument).getD ""

/-- Takes the value of an option. -/
def takeValue (read : ReadArguments) (argument : NamedArgument) (value : Argument) :
    Except UsageStop ReadArguments :=
  if read.hasSeen argument.shown then .error (.error (.repeated argument.shown))
  else
    match value.text? with
    | none => .error (.error .invalidUtf8)
    | some text =>
      .ok { read.see argument.shown with values := read.values ++ [(argument, text)] }

/-- Looks at the values that were put off. -/
def settle (grammar : Grammar) (read : ReadArguments) : Except UsageStop ReadArguments :=
  let settled := { read with pending := .nothing }
  match read.pending with
  | .nothing => .ok settled
  | .option argument none => .error (.error (.missingValue argument.shown))
  | .option argument (some value) => settled.takeValue argument value
  | .placed arguments =>
    match grammar.placed with
    | none => .ok settled
    | some place =>
      match arguments.findSome? place.check with
      | some error => .error (.error error)
      | none => .ok { settled.see place.shown with placed := settled.placed ++ arguments }

/-- Help is asked for. -/
def askHelp (grammar : Grammar) (read : ReadArguments) : Except UsageStop ReadArguments := do
  let _ ← read.settle grammar
  throw .help

/-- An argument that stands by its place. -/
def readPlaced (grammar : Grammar) (read : ReadArguments) (argument : Argument) :
    Except UsageStop ReadArguments := do
  if grammar.placed.isNone then throw (.error (.unexpectedArgument argument.shown))
  match read.pending with
  | .placed before => return { read with pending := .placed (before ++ [argument]) }
  | _ => return { ← read.settle grammar with pending := .placed [argument] }

/-- A named argument, from behind its two dashes. -/
def readNamed (grammar : Grammar) (read : ReadArguments) (argument : Argument) :
    Except UsageStop ReadArguments := do
  let (name, value) := argument.splitEquals
  let unexpected (flag : String) (value : Argument) : UsageStop :=
    .error (.unexpectedValue value.shown flag)
  match name.text? with
  | some "help" =>
    match value with
    | some value => throw (unexpected "--help" value)
    | none => read.askHelp grammar
  | text =>
    match text.bind fun text => grammar.named.find? (·.name == text), value with
    | none, _ => throw (.error (.unexpectedArgument ("--" ++ name.shown)))
    | some known, some value =>
      if known.valueName.isSome then (← read.settle grammar).takeValue known value
      else throw (unexpected known.shown value)
    | some known, none =>
      let settled ← read.settle grammar
      if known.valueName.isSome then return { settled with pending := .option known none }
      else if settled.hasSeen known.shown then throw (.error (.repeated known.shown))
      else return settled.see known.shown

/-- Letters behind one dash: only the one that asks for help is known. -/
def readLetters (grammar : Grammar) (read : ReadArguments) (letters : List UInt8) :
    Except UsageStop ReadArguments :=
  let unknown (shown : String) : Except UsageStop ReadArguments :=
    .error (.error (.unexpectedArgument ("-" ++ shown)))
  match letters with
  | [] => unknown ""
  | first :: rest =>
    match Text.firstChar first rest with
    | (_, 'h') => read.askHelp grammar
    | (_, '\uFFFD') => unknown (Text.lossy letters)
    | (_, c) => unknown (String.singleton c)

/-- The byte of a dash. -/
def dash : UInt8 := 45

/-- Reads one argument. -/
def readOne (grammar : Grammar) (read : ReadArguments) (argument : Argument) :
    Except UsageStop ReadArguments :=
  if read.trailing then read.readPlaced grammar argument
  else
    match argument.bytes with
    | [a, b] =>
      if a = dash ∧ b = dash then .ok { read with trailing := true }
      else if a = dash then read.readLetters grammar [b]
      else readValue
    | a :: b :: rest =>
      if a = dash ∧ b = dash then read.readNamed grammar ⟨rest⟩
      else if a = dash then read.readLetters grammar (b :: rest)
      else readValue
    | _ => readValue
where
  /-- An argument that is the value of an option before it or stands by its place. -/
  readValue : Except UsageStop ReadArguments :=
    match read.pending with
    | .option known none => .ok { read with pending := .option known (some argument) }
    | _ => read.readPlaced grammar argument

/-- Reads all arguments. -/
def ofArguments (grammar : Grammar) (arguments : List Argument) :
    Except UsageStop ReadArguments := do
  let read ← arguments.foldlM (readOne grammar) {}
  read.settle grammar

end ReadArguments

end CavityConsole

import CavityConsole.Text.Integer
import CavityConsole.Text.Terminal

/-!
# Help and usage errors

A command line that asks for help or cannot be understood is answered with one line that says what
the command does or what is wrong; how the answer goes on is left to the reader of the line. What
was typed is shown without what a terminal would not print.
-/

namespace CavityConsole

/-- A command as a command line names it. -/
inductive CommandName where
  /-- Print the version of the server. -/
  | version
  /-- Print the cavities of the server. -/
  | cavities
  /-- Start a job. -/
  | start
  /-- Pause the job. -/
  | pause
  /-- Resume the job. -/
  | resume
  /-- Stop the job. -/
  | stop
  /-- Skip a cavity. -/
  | skip
  /-- Apply the corrections of stored results. -/
  | applyCorrections
  /-- Print notifications. -/
  | watch
deriving DecidableEq, Repr

namespace CommandName

/-- All commands. -/
def all : List CommandName :=
  [.version, .cavities, .start, .pause, .resume, .stop, .skip, .applyCorrections, .watch]

/-- The text of a command. -/
def text : CommandName → String
  | .version => "version"
  | .cavities => "cavities"
  | .start => "start"
  | .pause => "pause"
  | .resume => "resume"
  | .stop => "stop"
  | .skip => "skip"
  | .applyCorrections => "apply-corrections"
  | .watch => "watch"

/-- The command that a text names. -/
def ofText? (text : String) : Option CommandName := all.find? fun name => name.text == text

/-- What a command does. -/
def help : CommandName → String
  | .version => "Prints the server version"
  | .cavities => "Lists the cavities the server can phase"
  | .start => "Starts a phasing job"
  | .pause => "Pauses the running job"
  | .resume => "Resumes the paused job"
  | .stop => "Stops the running job"
  | .skip => "Skips the cavity currently being phased"
  | .applyCorrections => "Applies the corrections recorded in stored results"
  | .watch => "Prints notifications until the server closes the connection"

end CommandName

/-- What the program does. -/
def programHelp : String := "Drive a phaser server from the command line"

/-- What is wrong with a command line. -/
inductive UsageError where
  /-- There is no command. -/
  | noCommand
  /-- There is no such command. -/
  | unknownCommand (shown : String)
  /-- An argument is not known. -/
  | unexpectedArgument (shown : String)
  /-- An option has no value. -/
  | missingValue (name : String)
  /-- A flag has a value. -/
  | unexpectedValue (value name : String)
  /-- An argument stands more than once. -/
  | repeated (name : String)
  /-- Two arguments exclude one another. -/
  | conflict (first second : String)
  /-- Arguments that are needed are missing. -/
  | missingArguments
  /-- A value is not a whole number in range. -/
  | invalidValue (value name : String) (error : Text.IntegerError)
  /-- A value is not text. -/
  | invalidUtf8
deriving DecidableEq

/-- The line that says what is wrong. -/
def UsageError.message : UsageError → String
  | .noCommand => programHelp
  | .unknownCommand shown =>
    "error: unrecognized subcommand '" ++ Text.Terminal.shown shown ++ "'"
  | .unexpectedArgument shown =>
    "error: unexpected argument '" ++ Text.Terminal.shown shown ++ "' found"
  | .missingValue name =>
    "error: a value is required for '" ++ name ++ "' but none was supplied"
  | .unexpectedValue value name =>
    "error: unexpected value '" ++ Text.Terminal.shown value ++ "' for '" ++ name ++
      "' found; no more were expected"
  | .repeated name => "error: the argument '" ++ name ++ "' cannot be used multiple times"
  | .conflict first second =>
    "error: the argument '" ++ first ++ "' cannot be used with '" ++ second ++ "'"
  | .missingArguments => "error: the following required arguments were not provided:"
  | .invalidValue value name error =>
    "error: invalid value '" ++ Text.Terminal.shown value ++ "' for '" ++ name ++ "': " ++
      error.message
  | .invalidUtf8 => "error: invalid UTF-8 was detected in one or more arguments"

end CavityConsole

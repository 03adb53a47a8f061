import CavityConsole.Settings.Flags
import CavityConsole.Text.Lossy

/-!
# Arguments of the command line

Arguments are bytes, most of them text. In front of the command stand the flags of the
configuration: each either holds its value behind an equals sign or is followed by it, whatever the
next argument looks like. The first argument that is neither starts the command, and everything from
there on belongs to it. Both parts keep the name of the program in front.
-/

namespace CavityConsole

/-- An argument of the command line. -/
structure Argument where
  /-- Its bytes. -/
  bytes : List UInt8
deriving DecidableEq, Repr

namespace Argument

/-- The argument with a text. -/
def ofText (text : String) : Argument := ⟨text.toUTF8.toList⟩

/-- The text of an argument, if it is one. -/
def text? (argument : Argument) : Option String := String.fromUTF8? ⟨argument.bytes.toArray⟩

/-- An argument as messages show it. -/
def shown (argument : Argument) : String := Text.lossy argument.bytes

/-- The byte of an equals sign. -/
def equalsSign : UInt8 := 61

/-- What stands before the first equals sign and, if there is one, what stands behind it. -/
def splitEquals (argument : Argument) : Argument × Option Argument :=
  match argument.bytes.dropWhile (· != equalsSign) with
  | [] => (argument, none)
  | _ :: value => (⟨argument.bytes.takeWhile (· != equalsSign)⟩, some ⟨value⟩)

end Argument

/-- What an argument is to the configuration. -/
inductive ArgumentRole where
  /-- A flag with its value. -/
  | complete
  /-- A flag whose value is the next argument. -/
  | needsValue
  /-- No flag of the configuration. -/
  | other
deriving DecidableEq, Repr

/-- What an argument is to the configuration. -/
def Argument.role (argument : Argument) : ArgumentRole :=
  let (flag, value) := argument.splitEquals
  match flag.text?.bind ConfigFlag.ofText? with
  | none => .other
  | some _ => if value.isSome then .complete else .needsValue

/-- A command line in two parts. -/
structure SplitArguments where
  /-- The flags of the configuration. -/
  configuration : List Argument := []
  /-- The command. -/
  command : List Argument := []
deriving DecidableEq

namespace SplitArguments

/-- Divides arguments in front of which no program name stands. -/
def divide : List Argument → SplitArguments
  | [] => {}
  | argument :: rest =>
    match argument.role with
    | .other => { command := argument :: rest }
    | .complete =>
      let behind := divide rest
      { behind with configuration := argument :: behind.configuration }
    | .needsValue =>
      match rest with
      | [] => { configuration := [argument] }
      | value :: rest =>
        let behind := divide rest
        { behind with configuration := argument :: value :: behind.configuration }

/-- Divides a command line. -/
def ofArguments : List Argument → SplitArguments
  | [] => {}
  | program :: rest =>
    let parts := divide rest
    { configuration := program :: parts.configuration, command := program :: parts.command }

end SplitArguments

end CavityConsole

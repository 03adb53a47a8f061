import CavityConsole.Settings.Layer
import CavityConsole.Text.Integer

/-!
# Settings on the command line

Each setting has a flag, and one more flag names a file. A flag is followed by its value, either
behind an equals sign or as the next argument; an argument that looks like a flag is not taken for a
value. The flag of a setting may also be written as one dash and a letter, and then the value may
follow at once. Each flag stands at most once, and nothing else may stand beside the flags. What is
given is checked at once, even where another layer would be checked later: numbers must be in range,
and the form of the log is known in any case.
-/

namespace CavityConsole

/-- A flag of the configuration. -/
inductive ConfigFlag where
  /-- Names a file with settings. -/
  | configPath
  /-- Gives a setting. -/
  | setting (setting : Setting)
deriving DecidableEq, Repr

namespace ConfigFlag

/-- All flags of the configuration. -/
def all : List ConfigFlag := .configPath :: Setting.all.map .setting

/-- The text of a flag. -/
def text : ConfigFlag → String
  | .configPath => "--config-path"
  | .setting s => "--" ++ s.name.map fun c => if c = '_' then '-' else c

/-- The flag that a text is. -/
def ofText? (text : String) : Option ConfigFlag := all.find? fun flag => flag.text == text

/-- The letter of a flag. -/
def letter? : ConfigFlag → Option Char
  | .configPath => none
  | .setting .serverHost => some 's'
  | .setting .serverPort => some 'S'
  | .setting .connectTimeoutSecs => some 'c'
  | .setting .responseTimeoutSecs => some 'r'
  | .setting .maxFrameLength => some 'm'
  | .setting .logFilter => some 'l'
  | .setting .logFormat => some 'L'

/-- The flag that a letter is. -/
def ofLetter? (letter : Char) : Option ConfigFlag :=
  all.find? fun flag => flag.letter? == some letter

/-- What stands before the first equals sign and, if there is one, what stands behind it. -/
def splitEquals (argument : String) : String × Option String :=
  let cs := argument.toList
  match cs.dropWhile (· != '=') with
  | [] => (argument, none)
  | _ :: value => (String.ofList (cs.takeWhile (· != '=')), some (String.ofList value))

/-- The flag that an argument is, and the value that it holds, if any. -/
def ofArgument? (argument : String) : Option (ConfigFlag × Option String) :=
  let (text, value) := splitEquals argument
  match ofText? text with
  | some flag => some (flag, value)
  | none =>
    match argument.toList with
    | ['-', letter] => (ofLetter? letter).map fun flag => (flag, none)
    | '-' :: letter :: '=' :: value | '-' :: letter :: value =>
      (ofLetter? letter).map fun flag => (flag, some (String.ofList value))
    | _ => none

end ConfigFlag

/-- The flags of a command line and their values. -/
structure Flags where
  /-- The flags in order, each once. -/
  given : List (ConfigFlag × String) := []
deriving DecidableEq

namespace Flags

/-- Whether an argument can be the value of a flag before it: it does not look like a flag. -/
def isValue (argument : String) : Bool := argument == "-" || !argument.startsWith "-"

/-- The value that the text of a flag gives, if the flag accepts it. -/
def value? (setting : Setting) (text : String) : Option Json :=
  match setting with
  | .serverHost | .logFilter => some (.string text)
  | .serverPort =>
    match Text.readInt 64 text.toList with
    | .ok i => if 0 ≤ i ∧ i ≤ Settings.portBound then some (.number (.integer i)) else none
    | .error _ => none
  | .connectTimeoutSecs | .responseTimeoutSecs | .maxFrameLength =>
    match Text.readNat Settings.countBound text.toList with
    | .ok n => some (.number (.integer n))
    | .error _ => none
  | .logFormat =>
    match LogFormat.read text with
    | .ok form => some (.string form.name)
    | .error _ => none

/-- Whether a flag accepts a value. -/
def accepts (flag : ConfigFlag) (value : String) : Bool :=
  match flag with
  | .configPath => true
  | .setting setting => (value? setting value).isSome

/-- Adds a flag with its value, unless the flag is there already or does not accept the value. -/
def add (flags : Flags) (flag : ConfigFlag) (value : String) : Option Flags :=
  if accepts flag value ∧ (flags.given.lookup flag).isNone then
    some ⟨flags.given ++ [(flag, value)]⟩
  else none

/-- Reads arguments behind those that were read. -/
def readFrom : Flags → List String → Option Flags
  | flags, [] => some flags
  | flags, "--" :: rest => if rest.isEmpty then some flags else none
  | flags, argument :: rest =>
    match ConfigFlag.ofArgument? argument with
    | none => none
    | some (flag, some value) => (flags.add flag value).bind (readFrom · rest)
    | some (flag, none) =>
      match rest with
      | [] => none
      | value :: rest =>
        if isValue value then (flags.add flag value).bind (readFrom · rest) else none

/-- Reads arguments. -/
def read (arguments : List String) : Option Flags := readFrom {} arguments

/-- The file that the flags name. -/
def filePath? (flags : Flags) : Option String := flags.given.lookup .configPath

/-- The layer that the flags give. -/
def layer (flags : Flags) : Layer :=
  ⟨.ofList <| flags.given.filterMap fun
    | (.setting setting, value) => (value? setting value).map fun given => (setting.name, given)
    | (.configPath, _) => none⟩

end Flags

end CavityConsole

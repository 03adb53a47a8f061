import CavityConsole.Files.Tree
import CavityConsole.Settings.Flags
import CavityConsole.Settings.Variables
import CavityConsole.Toml.Document

/-!
# Loading settings

Settings are loaded from a file, the environment and the command line. A file named by a flag must
be there. A file named by a variable is looked at only when no flag names one, and it may be
missing. What is there has to be a well-formed file as a whole. An environment that cannot be read
is reported before anything else.

A file can also build on another one, whose values would stand below its own. Such a base that can
be read is left out here: no other file is looked at, and every file that builds on one is refused
as if its base could not be read.
-/

namespace CavityConsole

/-- Why settings cannot be loaded. -/
inductive LoadError where
  /-- The text of a variable would be cut within a character. -/
  | unreadableEnvironment
  /-- The flags are not in order. -/
  | invalidFlags
  /-- There is no file of this name. -/
  | missingFile (path : String)
  /-- No text can be read from what has this name. -/
  | unusableFile (path : String)
  /-- The file of this name is not well formed. -/
  | malformedFile (path : String)
  /-- The file of this name builds on one that cannot be read; no base is ever read here. -/
  | missingBase (path : String)
  /-- Nothing was given. -/
  | nothingGiven
  /-- The value that counts for a setting is not of its type. -/
  | mismatch (mismatch : Json.Mismatch)
deriving DecidableEq

/-- The wording of an error. -/
def LoadError.message : LoadError → String
  | .unreadableEnvironment => "the environment cannot be read"
  | .invalidFlags => "invalid configuration flags"
  | .missingFile path => "configuration file '" ++ path ++ "' does not exist"
  | .unusableFile path => "configuration file '" ++ path ++ "' cannot be read"
  | .malformedFile path => "configuration file '" ++ path ++ "' is malformed"
  | .missingBase path => "configuration file '" ++ path ++ "' extends an unreadable file"
  | .nothingGiven => "no configuration was given"
  | .mismatch m => m.message

/-- The key by which a file names another one that it builds on. -/
def baseKey : String := "extends"

/-- The layer that the content of a file gives. Its base is not looked for: one that can be read
would give a further layer below this one, and is left out. -/
def Layer.ofFile (path content : String) : Except LoadError Layer :=
  match Toml.members? content with
  | none => .error (.malformedFile path)
  | some values =>
    if values.contains baseKey then .error (.missingBase path) else .ok ⟨values⟩

/-- Everything that settings can be loaded from. -/
structure Sources where
  /-- What paths lead to. -/
  files : String → FileState := fun _ => .missing
  /-- The variables of the environment in their order. -/
  environment : List (String × String) := []
  /-- The arguments of the command line. -/
  arguments : List String := []

namespace Sources

/-- The path of the file, and whether the file has to be there. -/
def filePath? (sources : Sources) (flags : Flags) : Option (String × Bool) :=
  (flags.filePath?.map fun path => (path, true)).or <|
    (Variables.filePath? sources.environment).map fun path => (path, false)

/-- The layer of the file, if there is one. -/
def fileLayer (sources : Sources) (flags : Flags) : Except LoadError (Option Layer) :=
  match sources.filePath? flags with
  | none => .ok none
  | some (path, isRequired) =>
    match sources.files path with
    | .text content => (Layer.ofFile path content).map some
    | .missing => if isRequired then .error (.missingFile path) else .ok none
    | .unusable => .error (.unusableFile path)

/-- The layers of all sources. -/
def layers (sources : Sources) : Except LoadError Layers := do
  let environment ←
    (Variables.layer sources.environment).mapError fun _ => LoadError.unreadableEnvironment
  let flags ← (Flags.read sources.arguments).elim (.error .invalidFlags) .ok
  return { file := ← sources.fileLayer flags, environment, flags := flags.layer }

/-- The settings of all sources. -/
def load (sources : Sources) : Except LoadError Settings := do
  let layers ← sources.layers
  if !layers.isGiven then throw .nothingGiven
  layers.merged.settings.mapError .mismatch

end Sources

end CavityConsole

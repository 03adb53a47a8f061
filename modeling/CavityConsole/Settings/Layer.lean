import CavityConsole.Json.Overlay
import CavityConsole.Settings.Basic

/-!
# Layers of settings

Settings are given in layers: a file, variables of the environment, flags. A layer is an object of
named values as they were given; a name that is no setting is never asked for. The layers are laid
over one another, and only the value that is then seen under the name of a setting is checked. Where
none is seen the default stands.

When nothing at all was given there is nothing to read settings from, and that is an error, although
every setting has a default.
-/

namespace CavityConsole

/-- Values that were given in one place, under their names. -/
structure Layer where
  /-- The values. -/
  values : Members := []

namespace Layer

/-- Whether a layer holds nothing. -/
def isEmpty (layer : Layer) : Bool := layer.values.isEmpty

/-- A layer over another one. -/
def laidOver (layer below : Layer) : Layer := ⟨Json.membersOver layer.values below.values⟩

/-- Sets one setting to the value that is seen under its name. -/
def apply (layer : Layer) (settings : Settings) (setting : Setting) :
    Except Json.Mismatch Settings :=
  match layer.values.get? setting.name with
  | none => .ok settings
  | some given => settings.put setting given

/-- The settings that a layer gives. -/
def settings (layer : Layer) : Except Json.Mismatch Settings :=
  Setting.all.foldlM layer.apply {}

end Layer

/-- Everything that was given, each kind of layer at most once. -/
structure Layers where
  /-- The settings of a file, if there is one. -/
  file : Option Layer := none
  /-- The settings of the environment. -/
  environment : Layer := {}
  /-- The settings of the command line. -/
  flags : Layer := {}

namespace Layers

/-- Whether anything was given; a file counts even if it is empty. -/
def isGiven (layers : Layers) : Bool :=
  layers.file.isSome || !layers.environment.isEmpty || !layers.flags.isEmpty

/-- All layers as one, the flags over the environment over the file. -/
def merged (layers : Layers) : Layer :=
  layers.flags.laidOver (layers.environment.laidOver (layers.file.getD {}))

end Layers

end CavityConsole

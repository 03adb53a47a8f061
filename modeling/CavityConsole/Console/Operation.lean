import CavityConsole.Console.Basic

/-!
# What responses say

Two commands are issued for what their response holds. The version is a string, the cavities are a
list of strings; a field that is absent or `null` is missing, and one of another shape is invalid.
-/

namespace CavityConsole

/-- A field that a response needs. -/
def requiredField (command : String) (response : Document) (field : String) :
    Except CommandError Json :=
  match Members.get? response field with
  | none | some .null => .error (.missingField command field)
  | some value => .ok value

/-- The version that a response to `version` holds. -/
def versionOf (response : Document) : Except CommandError String := do
  match ← requiredField "version" response "version" with
  | .string version => return version
  | _ => throw (.invalidField "version" "version")

/-- The cavities that a response to `cavities` holds, in the order of the server. -/
def cavitiesOf (response : Document) : Except CommandError CavityList := do
  match ← requiredField "cavities" response "cavities" with
  | .array elements =>
    match elements.mapM Json.string? with
    | some names => return .ofList names
    | none => throw (.invalidField "cavities" "cavities")
  | _ => throw (.invalidField "cavities" "cavities")

end CavityConsole

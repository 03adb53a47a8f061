import CavityConsole.Json.Basic

/-!
# One value over another

Where values come in layers, the value of the higher layer hides the one below it. Only objects let
through what they do not have themselves: of two objects the members are joined, and a member that
both have is again one value over another.
-/

namespace CavityConsole.Json

mutual

/-- What is seen of a value over another one. -/
def laidOver : Json → (below : Json) → Json
  | .object members, .object below => .object (membersOver members below)
  | value, _ => value

/-- What is seen of members over others. -/
def membersOver : List (String × Json) → (below : Members) → Members
  | [], below => below
  | (key, value) :: rest, below =>
    let seen :=
      match below.get? key with
      | none => value
      | some hidden => laidOver value hidden
    membersOver rest (below.insert key seen)

end

end CavityConsole.Json

/-!
# Registries of listeners

Listeners are called in the order in which they were registered; one that was registered twice is
called twice. Nothing is ever taken out of a registry.
-/

namespace CavityConsole

/-- Listeners in the order of their registration. -/
structure Registry (α : Type) where
  /-- The listeners. -/
  listeners : List α := []
deriving DecidableEq

namespace Registry

variable {α : Type}

/-- A registry without listeners. -/
def empty : Registry α := {}

instance : Inhabited (Registry α) := ⟨empty⟩

/-- Registers a listener behind those that are there. -/
def register (registry : Registry α) (listener : α) : Registry α :=
  ⟨registry.listeners ++ [listener]⟩

/-- How many registrations there are. -/
def size (registry : Registry α) : Nat := registry.listeners.length

/-- Whether nothing is registered. -/
def isEmpty (registry : Registry α) : Bool := registry.listeners.isEmpty

@[simp] theorem listeners_register (registry : Registry α) (listener : α) :
    (registry.register listener).listeners = registry.listeners ++ [listener] := rfl

@[simp] theorem size_register (registry : Registry α) (listener : α) :
    (registry.register listener).size = registry.size + 1 := by
  simp [size]

end Registry

end CavityConsole

import CavityConsole.Job.CavityList

/-!
# Shared cavity lists

The cavities of the server are kept where several parts of a program can see them. A handle refers
to such a list; handles made from one another refer to the same one. What was read through a handle
stays as it was read when the list is replaced.
-/

namespace CavityConsole

/-- All the lists that there are, each under the number by which handles refer to it. -/
structure CavityCaches where
  /-- The lists. -/
  lists : List CavityList := []
deriving DecidableEq

/-- A reference to one of the lists. -/
structure CavityHandle where
  /-- The number of the list. -/
  index : Nat
deriving DecidableEq, Repr, Inhabited

namespace CavityCaches

/-- Adds an empty list of its own. -/
def fresh (caches : CavityCaches) : CavityCaches × CavityHandle :=
  (⟨caches.lists ++ [.empty]⟩, ⟨caches.lists.length⟩)

/-- The list that a handle refers to, as it is now. -/
def snapshot (caches : CavityCaches) (handle : CavityHandle) : CavityList :=
  (caches.lists[handle.index]?).getD .empty

/-- Replaces the list that a handle refers to. -/
def replace (caches : CavityCaches) (handle : CavityHandle) (cavities : CavityList) :
    CavityCaches :=
  ⟨caches.lists.set handle.index cavities⟩

/-- Whether a name is in the list that a handle refers to. -/
def contains (caches : CavityCaches) (handle : CavityHandle) (name : String) : Bool :=
  (caches.snapshot handle).contains name

end CavityCaches

end CavityConsole

/-!
# Ordered sets of cavity names

Cavities are phased in a given order and none of them twice. A `CavityList` holds each name once;
built from a list with repetitions it keeps the first occurrence of each name.
-/

namespace CavityConsole

/-- Keeping the first occurrences leaves every element once. -/
theorem nodup_eraseDups {α : Type} [BEq α] [LawfulBEq α] (xs : List α) : xs.eraseDups.Nodup := by
  induction size : xs.length using Nat.strongRecOn generalizing xs with
  | ind size shorterOnes =>
    match xs, size with
    | [], _ => exact List.nodup_nil
    | first :: others, size =>
      have apart : first ∉ (others.filter fun x => !x == first).eraseDups := by
        simp [List.mem_eraseDups]
      have shorter : (others.filter fun x => !x == first).length < (first :: others).length :=
        Nat.lt_succ_of_le (List.length_filter_le _ _)
      rw [List.eraseDups_cons]
      exact List.nodup_cons.2 ⟨apart, shorterOnes _ (size ▸ shorter) _ rfl⟩

/-- Names in a given order, each once. -/
structure CavityList where
  /-- The names in order. -/
  names : List String
  /-- No name occurs twice. -/
  nodup : names.Nodup
deriving DecidableEq

namespace CavityList

/-- No names. -/
def empty : CavityList := ⟨[], List.nodup_nil⟩

instance : Inhabited CavityList := ⟨empty⟩
instance : EmptyCollection CavityList := ⟨empty⟩

/-- The names of a list, each at the place of its first occurrence. -/
def ofList (names : List String) : CavityList := ⟨names.eraseDups, nodup_eraseDups names⟩

/-- Whether a name is there. -/
def contains (cavities : CavityList) (name : String) : Bool := cavities.names.contains name

/-- How many names there are. -/
def size (cavities : CavityList) : Nat := cavities.names.length

/-- Whether there are no names. -/
def isEmpty (cavities : CavityList) : Bool := cavities.names.isEmpty

/-- A name is in the list exactly when it is among the names it was built from. -/
theorem contains_ofList (names : List String) (name : String) :
    (ofList names).contains name = names.contains name := by
  rw [Bool.eq_iff_iff]
  simp [contains, ofList, List.mem_eraseDups]

end CavityList

end CavityConsole

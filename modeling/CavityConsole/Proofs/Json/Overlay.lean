import CavityConsole.Json.Overlay
import CavityConsole.Proofs.Json.Members

/-!
# Values over one another

A value hides the one below it unless both are objects (`over?_of_apart`). **The law**
(`get?_membersOver`): of two objects, what is seen under a key is again one value over another, from
whichever of the objects has that key. It asks for the keys of the upper object to be in order only,
as the upper members are laid over the lower ones one by one.
-/

namespace CavityConsole.Json

/-- What is seen where there may be a value over another one. -/
def over? : Option Json → (below : Option Json) → Option Json
  | none, below => below
  | some value, none => some value
  | some value, some below => some (laidOver value below)

/-- A value that is no table hides what is below it. -/
theorem laidOver_of_ne {value : Json} (h : ∀ members, value ≠ .object members) (below : Json) :
    laidOver value below = value := by
  cases value with
  | object members => exact absurd rfl (h members)
  | _ => rfl

/-- A value that is no table lets nothing of itself through. -/
theorem laidOver_of_below_ne {below : Json} (h : ∀ members, below ≠ .object members)
    (value : Json) : laidOver value below = value := by
  cases value with
  | object =>
    cases below with
    | object members => exact absurd rfl (h members)
    | _ => rfl
  | _ => rfl

/-- Unless both are tables, the upper value is seen. -/
theorem over?_of_apart {value : Json} {below : Option Json}
    (apart : ∀ above members, value = .object above → below ≠ some (.object members)) :
    over? (some value) below = some value := by
  cases below with
  | none => rfl
  | some below =>
    by_cases htable : ∃ above, value = .object above
    · obtain ⟨above, habove⟩ := htable
      refine congrArg some (laidOver_of_below_ne (fun members hbelow => ?_) value)
      exact apart above members habove (congrArg some hbelow)
    · exact congrArg some (laidOver_of_ne (fun above habove => htable ⟨above, habove⟩) below)

variable {above below : Members}

/-- **Of members over others each is one value over another.** -/
theorem get?_membersOver (h : above.Ascending) (below : Members) (key : String) :
    (membersOver above below).get? key = over? (above.get? key) (below.get? key) := by
  induction above generalizing below with
  | nil => rfl
  | cons member rest ih =>
    obtain ⟨k, value⟩ := member
    rw [membersOver, ih (List.pairwise_cons.mp h).2, Members.get?_insert, Members.get?_cons]
    by_cases hkey : key = k
    · rw [if_pos hkey, if_pos hkey, hkey, Members.get?_behind h]
      cases below.get? k <;> rfl
    · rw [if_neg hkey, if_neg hkey]

theorem eq_null_of_laidOver {value below : Json} (h : laidOver value below = .null) :
    value = .null := by
  by_cases htable : ∃ members, below = .object members
  · obtain ⟨members, rfl⟩ := htable
    cases value with
    | object => cases h
    | _ => exact h
  · rwa [laidOver_of_below_ne fun members heq => htable ⟨members, heq⟩] at h

end CavityConsole.Json

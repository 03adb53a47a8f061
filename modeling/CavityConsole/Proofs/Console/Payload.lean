import CavityConsole.Console.Operation
import CavityConsole.Proofs.Json.Members
import Mathlib.Data.List.Basic

/-!
# What an accepted response holds

A response is accepted when its `response` member is the string `ok`. The version of the server is a
string member, its cavities are an array of strings; a cavity that is named more than once is kept
at its first place.

* `versionOf_eq_ok_iff`: when a response holds a version.
* `cavitiesOf_cases`: when it holds cavities, and what it is refused for otherwise.
* `firstOccurrences_ofList`: which names are kept, and in which order.
-/

namespace CavityConsole

variable {document : Document}

/-- A response accepts the command that it answers. -/
def Accepting (document : Document) : Prop :=
  Members.get? document "response" = some (.string "ok")

/-! ## Fields -/

theorem requiredField_of_lacks {field : String} (h : Lacks document field) (command : String) :
    requiredField command document field = .error (.missingField command field) := by
  rcases h with h | h <;> rw [requiredField, h]

theorem requiredField_of_some {field : String} {value : Json} (command : String)
    (h : Members.get? document field = some value) (hvalue : value ≠ .null) :
    requiredField command document field = .ok value := by
  rw [requiredField, h]
  cases value with
  | null => exact absurd rfl hvalue
  | boolean | number | string | array | object => rfl

/-! ## The version -/

theorem versionOf_eq_ok_iff {version : String} :
    versionOf document = .ok version ↔
      Members.get? document "version" = some (.string version) := by
  rcases lacks_or document "version" with hlacks | ⟨value, hvalue, hnull⟩
  · rw [versionOf, requiredField_of_lacks hlacks]
    constructor
    · nofun
    · intro h
      rcases hlacks with hlacks | hlacks <;> cases h.symm.trans hlacks
  · rw [versionOf, requiredField_of_some _ hvalue hnull, hvalue, Option.some.injEq]
    cases value with
    | string text =>
      show Except.ok text = _ ↔ _
      rw [Except.ok.injEq, Json.string.injEq]
    | null | boolean | number | array | object => exact ⟨nofun, nofun⟩

/-! ## The cavities -/

/-- A response lists these names, in this order. -/
def Lists (document : Document) (names : List String) : Prop :=
  Members.get? document "cavities" = some (.array (names.map .string))

theorem mapM_string?_eq_some_iff {elements : List Json} {names : List String} :
    elements.mapM Json.string? = some names ↔ elements = names.map .string := by
  induction elements generalizing names with
  | nil =>
    rw [List.mapM_nil, eq_comm (a := []), List.map_eq_nil_iff]
    exact ⟨fun h => (Option.some.inj h).symm, fun h => congrArg some h.symm⟩
  | cons element elements ih =>
    rw [List.mapM_cons]
    cases element with
    | string text =>
      cases names with
      | nil =>
        cases elements.mapM Json.string? <;> simp [Json.string?]
      | cons name names =>
        rw [List.map_cons, List.cons.injEq, ← ih, Json.string.injEq]
        cases elements.mapM Json.string? <;> simp [Json.string?]
    | null | boolean | number | array | object =>
      cases names <;> simp [Json.string?]

/-- A field `cavities` that holds something else than an array of strings. -/
def Mislists (document : Document) : Prop :=
  ¬ Lacks document "cavities" ∧ ∀ names, ¬ Lists document names

/-- **What asking a response for the cavities comes to.** -/
theorem cavitiesOf_cases (document : Document) :
    (∃ names, Lists document names ∧ cavitiesOf document = .ok (.ofList names)) ∨
      (Lacks document "cavities" ∧
        cavitiesOf document = .error (.missingField "cavities" "cavities")) ∨
      (Mislists document ∧
        cavitiesOf document = .error (.invalidField "cavities" "cavities")) := by
  rcases lacks_or document "cavities" with hlacks | ⟨value, hvalue, hnull⟩
  · refine .inr (.inl ⟨hlacks, ?_⟩)
    rw [cavitiesOf, requiredField_of_lacks hlacks]
    rfl
  have hpresent : ¬ Lacks document "cavities" := not_lacks_of_get? hvalue hnull
  have hinvalid : (∀ names : List String, value ≠ .array (names.map .string)) → Mislists document :=
    fun hother => ⟨hpresent, fun names hlists => hother names (Option.some.inj (hvalue ▸ hlists))⟩
  rw [cavitiesOf, requiredField_of_some _ hvalue hnull]
  cases value with
  | array elements =>
    cases helements : elements.mapM Json.string? with
    | some names =>
      refine .inl ⟨names, ?_, ?_⟩
      · rw [Lists, hvalue, mapM_string?_eq_some_iff.mp helements]
      · simp only [bind, Except.bind, helements]
        rfl
    | none =>
      refine .inr (.inr ⟨hinvalid fun names harray => ?_, ?_⟩)
      · rw [mapM_string?_eq_some_iff.mpr (Json.array.inj harray)] at helements
        cases helements
      · simp only [bind, Except.bind, helements]
        rfl
  | null => exact absurd rfl hnull
  | boolean | number | string | object => exact .inr (.inr ⟨hinvalid nofun, rfl⟩)

/-! ## Repetitions -/

/-- The names that are written, each at the place of its first occurrence. -/
structure FirstOccurrences (written kept : List String) : Prop where
  /-- No name is lost or made up. -/
  members : ∀ name, name ∈ kept ↔ name ∈ written
  /-- The names come in the order of their first occurrences, so none comes twice. -/
  ordered : kept.Pairwise (written.idxOf · < written.idxOf ·)

/-- Leaving a name out keeps the order in which others first occur. -/
theorem idxOf_lt_of_filter {name a b : String} (ha : a ≠ name) (hb : b ≠ name)
    {written : List String}
    (h : (written.filter fun x => !x == name).idxOf a <
      (written.filter fun x => !x == name).idxOf b) :
    written.idxOf a < written.idxOf b := by
  induction written with
  | nil => exact h
  | cons first others ih =>
    by_cases hfirst : first = name
    · subst hfirst
      rw [List.filter_cons_of_neg (by simp)] at h
      rw [List.idxOf_cons_ne _ ha.symm, List.idxOf_cons_ne _ hb.symm]
      exact Nat.succ_lt_succ (ih h)
    · rw [List.filter_cons_of_pos (by simpa using hfirst)] at h
      by_cases hfirstA : first = a
      · subst hfirstA
        rw [List.idxOf_cons_self] at h ⊢
        by_cases hfirstB : first = b
        · subst hfirstB
          rw [List.idxOf_cons_self] at h
          exact absurd h (Nat.lt_irrefl 0)
        · rw [List.idxOf_cons_ne _ hfirstB]
          exact Nat.succ_pos _
      · by_cases hfirstB : first = b
        · subst hfirstB
          rw [List.idxOf_cons_self] at h
          exact absurd h (Nat.not_lt_zero _)
        · rw [List.idxOf_cons_ne _ hfirstA, List.idxOf_cons_ne _ hfirstB] at h ⊢
          exact Nat.succ_lt_succ (ih (Nat.lt_of_succ_lt_succ h))

/-- **A list of cavities keeps the first occurrences** of what it is built from. -/
theorem firstOccurrences_ofList (written : List String) :
    FirstOccurrences written (CavityList.ofList written).names := by
  refine ⟨fun name => List.mem_eraseDups, ?_⟩
  show written.eraseDups.Pairwise _
  induction hsize : written.length using Nat.strongRecOn generalizing written with
  | ind size ih =>
    cases written with
    | nil => exact .nil
    | cons first others =>
      have hshorter : (others.filter fun x => !x == first).length < size := by
        rw [← hsize]
        exact Nat.lt_succ_of_le (List.length_filter_le _ _)
      have hothers : ∀ name ∈ (others.filter fun x => !x == first).eraseDups, name ≠ first := by
        intro name hname
        simpa using (List.mem_filter.mp (List.mem_eraseDups.mp hname)).2
      rw [List.eraseDups_cons]
      refine .cons (fun name hname => ?_) ?_
      · rw [List.idxOf_cons_self, List.idxOf_cons_ne _ (hothers name hname).symm]
        exact Nat.succ_pos _
      · refine (ih _ hshorter _ rfl).imp_of_mem fun ha hb hlt => ?_
        rw [List.idxOf_cons_ne _ (hothers _ ha).symm, List.idxOf_cons_ne _ (hothers _ hb).symm]
        exact Nat.succ_lt_succ (idxOf_lt_of_filter (hothers _ ha) (hothers _ hb) hlt)

end CavityConsole

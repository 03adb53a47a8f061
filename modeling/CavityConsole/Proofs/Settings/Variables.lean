import CavityConsole.Proofs.Json.Members
import CavityConsole.Proofs.Outcome
import CavityConsole.Settings.Variables

/-!
# What variables give

A variable with the name of a setting gives that setting, in any case of its letters
(`path?_of_setting`): the name is read as if all letters were in lower case (`path?_toLower`).

**The law** (`exists_layer`): when all texts can be read, the layer of the environment holds for
each name what the last variable gives that gives something for it (`last?`). The induction adds
variables at the end, where each hides those before it.
-/

namespace CavityConsole.Variables

/-! ## Names -/

/-- A letter in upper case stands 32 places before the one in lower case, and every other character
stays as it is. -/
theorem toLower_cases (c : Char) :
    c.toLower = c ∨ 65 ≤ c.toNat ∧ c.toNat ≤ 90 ∧ c.toLower.toNat = c.toNat + 32 := by
  delta Char.toLower
  split
  next h =>
    have hlow : 65 ≤ c.toNat := UInt32.le_iff_toNat_le.mp h.1
    have hhigh : c.toNat ≤ 90 := UInt32.le_iff_toNat_le.mp h.2
    refine .inr ⟨hlow, hhigh, ?_⟩
    show (c.val + 32).toNat = c.val.toNat + 32
    rw [UInt32.toNat_add]
    exact Nat.mod_eq_of_lt (by have : c.val.toNat ≤ 90 := hhigh; simp; omega)
  next => exact .inl rfl

theorem toLower_toLower (c : Char) : c.toLower.toLower = c.toLower := by
  rcases toLower_cases c with h | ⟨hlow, -, hlower⟩
  · rw [h, h]
  · rcases toLower_cases c.toLower with h | ⟨-, hhigh, -⟩
    · exact h
    · omega

theorem isBlank_of_range {c : Char} (hlow : 65 ≤ c.toNat) (hhigh : c.toNat ≤ 122) :
    Text.isBlank c = false := by
  refine List.any_eq_false.mpr fun range hmem => ?_
  have houtside : 122 < range.1 ∨ range.2 < 65 := by
    revert range
    decide
  simp only [Bool.and_eq_true, decide_eq_true_eq]
  omega

theorem isBlank_toLower (c : Char) : Text.isBlank c.toLower = Text.isBlank c := by
  rcases toLower_cases c with h | ⟨hlow, hhigh, hlower⟩
  · rw [h]
  · rw [isBlank_of_range hlow (by omega), isBlank_of_range (c := c.toLower) (by omega) (by omega)]

theorem toLower_eq_underscore_iff {c : Char} : c.toLower = '_' ↔ c = '_' := by
  rcases toLower_cases c with h | ⟨hlow, hhigh, hlower⟩
  · rw [h]
  · have hunderscore : '_'.toNat = 95 := rfl
    constructor
    · intro hc
      rw [hc] at hlower
      omega
    · rintro rfl
      omega

theorem trim_map_toLower (cs : List Char) :
    Text.trim (cs.map Char.toLower) = (Text.trim cs).map Char.toLower := by
  have hblank : Text.isBlank ∘ Char.toLower = Text.isBlank := funext isBlank_toLower
  simp only [Text.trim, Text.trimStart, Text.trimEnd, List.dropWhile_map, hblank,
    ← List.map_reverse]

theorem pointed_map_toLower (cs : List Char) :
    pointed (cs.map Char.toLower) = (pointed cs).map Char.toLower := by
  fun_induction pointed cs with
  | case1 rest ih =>
    have hline : '_'.toLower = '_' := rfl
    have hpoint : '.'.toLower = '.' := rfl
    rw [List.map_cons, List.map_cons, List.map_cons, hline, hpoint, pointed, ih]
  | case2 c rest hpair ih =>
    rw [List.map_cons, List.map_cons, pointed, ih]
    -- no second underscore appears in lower case
    intro more hc hrest
    obtain ⟨next, others, rfl, hnext, -⟩ := List.map_eq_cons_iff.mp hrest
    exact hpair others (toLower_eq_underscore_iff.mp hc) (by
      rw [toLower_eq_underscore_iff.mp hnext])
  | case3 => rfl

theorem steps?_map_toLower (cs : List Char) : steps? (cs.map Char.toLower) = steps? cs := by
  have hlower : Char.toLower ∘ Char.toLower = Char.toLower := funext toLower_toLower
  simp only [steps?, pointed_map_toLower, trim_map_toLower, List.map_map, hlower]

/-- **The case of letters in the name of a variable does not matter.** -/
theorem path?_toLower (name : String) :
    path? (String.ofList (name.toList.map Char.toLower)) = path? name := by
  have hlower : Char.toLower ∘ Char.toLower = Char.toLower := funext toLower_toLower
  simp only [path?, String.toList_ofList, trim_map_toLower, List.map_map, hlower, ← List.map_drop,
    steps?_map_toLower]

/-- **A variable with the name of a setting gives that setting**, in any case of its letters. -/
theorem path?_of_setting {name : String} {setting : Setting}
    (h : name.toList.map Char.toLower = ("phaser_" ++ setting.name).toList) :
    path? name = some [setting.name] := by
  rw [← path?_toLower, h]
  cases setting <;> decide +kernel

/-! ## Values -/

/-- What a variable gives for a name. -/
def given? (name : String) (entry : String × String) : Option Json :=
  match path? entry.1, read entry.2 with
  | some (first :: steps), .ok value => if first = name then some (nested steps value) else none
  | _, _ => none

/-- What the last variable that gives something for a name gives for it. -/
def last? (environment : List (String × String)) (name : String) : Option Json :=
  environment.reverse.findSome? (given? name)

/-- All variables that lead somewhere hold a text that can be read. -/
def Readable (environment : List (String × String)) : Prop :=
  ∀ entry ∈ environment, ∀ first steps, path? entry.1 = some (first :: steps) →
    ∃ value, read entry.2 = .ok value

variable {environment : List (String × String)} {name : String} {members : Members}

theorem last?_concat (environment : List (String × String)) (entry : String × String)
    (name : String) :
    last? (environment ++ [entry]) name = (given? name entry).or (last? environment name) := by
  rw [last?, List.reverse_append, List.reverse_singleton, List.singleton_append,
    List.findSome?_cons]
  cases given? name entry <;> rfl

/-- One more variable hides what was given for its name before. -/
theorem exists_add {entry : String × String} (h : Readable [entry]) (before : Members) :
    ∃ after, add before entry = .ok after ∧ (before.Ascending → after.Ascending) ∧
      ∀ name, after.get? name = (given? name entry).or (before.get? name) := by
  have hnothing : (∀ name, given? name entry = none) → add before entry = .ok before →
      ∃ after, add before entry = .ok after ∧ (before.Ascending → after.Ascending) ∧
        ∀ name, after.get? name = (given? name entry).or (before.get? name) := fun hnone hadd =>
    ⟨before, hadd, id, fun name => by rw [hnone, Option.none_or]⟩
  match hpath : path? entry.1 with
  | none => exact hnothing (fun name => by simp only [given?, hpath]) (by rw [add, hpath])
  | some [] => exact hnothing (fun name => by simp only [given?, hpath]) (by rw [add, hpath])
  | some (first :: steps) =>
    obtain ⟨value, hread⟩ := h entry List.mem_cons_self first steps hpath
    refine ⟨before.insert first (nested steps value), ?_, fun hbefore => hbefore.insert _ _,
      fun name => ?_⟩
    · simp only [add, hpath, hread]
      rfl
    · simp only [given?, hpath, hread, Members.get?_insert, eq_comm (a := name)]
      split <;> rfl

/-- **The layer of the environment holds what the last variable gives**, for every name. -/
theorem exists_layer (h : Readable environment) :
    ∃ held : Members, layer environment = .ok ⟨held⟩ ∧ held.Ascending ∧
      ∀ name, held.get? name = last? environment name := by
  have hfold : ∃ held : Members, environment.foldlM add [] = .ok held ∧
      held.Ascending ∧ ∀ name, held.get? name = last? environment name := by
    induction environment using List.reverseRecOn with
    | nil => exact ⟨[], rfl, List.Pairwise.nil, fun _ => rfl⟩
    | append_singleton environment entry ih =>
      obtain ⟨before, hbefore, hascending, hlast⟩ :=
        ih fun other hother => h other (List.mem_append_left _ hother)
      have hentry : Readable [entry] := fun other hother =>
        h other (List.mem_append_right _ hother)
      obtain ⟨after, hafter, hkeeps, hget⟩ := exists_add hentry before
      refine ⟨after, ?_, hkeeps hascending, fun name => ?_⟩
      · rw [List.foldlM_append]
        exact bind_eq_ok_iff.mpr ⟨before, hbefore, by simpa using hafter⟩
      · rw [last?_concat, hget, hlast]
  obtain ⟨held, hfold, h⟩ := hfold
  exact ⟨held, by rw [layer, hfold]; rfl, h⟩

theorem word_ne_object (cs : List Char) : word cs ≠ .object members := by
  unfold word
  dsimp only
  repeat' split
  all_goals simp

/-- A table that a text holds has its keys in order. -/
theorem ascending_of_value {depth : Nat} {cs rest : List Char}
    (h : value depth cs = .ok (.object members, rest)) : members.Ascending := by
  cases depth with
  | zero => cases h
  | succ depth =>
    rw [value] at h
    split at h
    next => cases h
    next => cases h
    next =>
      obtain ⟨⟨inner, more⟩, hinner, h⟩ := bind_eq_ok_iff.mp h
      obtain ⟨⟨written, more⟩, -, heq⟩ := map_eq_ok_iff.mp hinner
      cases heq
      cases h
      exact (Members.settles_ofList written).ascending
    rotate_right
    next => exact absurd (congrArg Prod.fst (Except.ok.inj h)) (word_ne_object _)
    all_goals
      obtain ⟨⟨inner, more⟩, hinner, h⟩ := bind_eq_ok_iff.mp h
      obtain ⟨⟨inner, more⟩, -, heq⟩ := map_eq_ok_iff.mp hinner
      cases heq
      cases h

theorem ascending_of_read {text : String} (h : read text = .ok (.object members)) :
    members.Ascending := by
  rw [read] at h
  split at h
  next => cases h
  next =>
    split at h
    next => cases h
    next =>
      split at h
      next hvalue =>
        cases h
        exact ascending_of_value hvalue
      all_goals cases h

theorem ascending_of_last? (h : last? environment name = some (.object members)) :
    members.Ascending := by
  obtain ⟨entry, -, hentry⟩ := List.exists_of_findSome?_eq_some h
  rw [given?] at hentry
  split at hentry
  next first steps value _ hread =>
    split at hentry
    next =>
      cases steps with
      | nil =>
        obtain rfl : value = .object members := Option.some.inj hentry
        exact ascending_of_read hread
      | cons step steps =>
        cases hentry
        exact List.pairwise_singleton _ _
    next => cases hentry
  next => cases hentry

end CavityConsole.Variables

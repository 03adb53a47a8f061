import CavityConsole.Json.Basic
import Mathlib.Data.List.Induction

/-!
# Members and the order in which they are written

An object keeps its members in increasing order of their keys. What it holds for a key is what was
written for that key last (`Settles`). One list of members is all that can be made of what was
written (`Settles.unique`), and it is the one that the reader makes (`settles_ofList`). Members that
are in order already are left as they are (`Ascending.ofList`).

A member that is absent or `null` is unset (`Lacks`).
-/

namespace CavityConsole.Members

/-- The keys increase. -/
def Ascending (members : Members) : Prop := members.Pairwise fun a b => a.1 < b.1

/-- What is written last for a key. -/
def lastOf (written : List (String × Json)) (key : String) : Option Json :=
  written.reverse.lookup key

/-- What is made of members as they are written: each key stands once, with the value that was
written for it last. -/
structure Settles (written : List (String × Json)) (members : Members) : Prop where
  ascending : Ascending members
  last : ∀ key, members.get? key = lastOf written key

variable {key : String} {value : Json} {members others : Members}

theorem get?_cons (k : String) (v : Json) (rest : Members) (key : String) :
    get? ((k, v) :: rest) key = if key = k then some v else get? rest key := by
  by_cases h : key = k
  · rw [get?, List.lookup_cons, beq_iff_eq.mpr h, if_pos h]
  · rw [get?, List.lookup_cons, beq_false_of_ne h, if_neg h]
    rfl

/-- A member that is set is there, and the others stay. -/
theorem get?_insert (key : String) (value : Json) (members : Members) (name : String) :
    (members.insert key value).get? name =
      if name = key then some value else members.get? name := by
  induction members with
  | nil => exact get?_cons key value [] name
  | cons member rest ih =>
    obtain ⟨k, v⟩ := member
    rw [insert]
    split
    next => exact get?_cons key value _ name
    next =>
      split
      next heq =>
        subst heq
        rw [get?_cons, get?_cons]
        split <;> rfl
      next hne =>
        rw [get?_cons, get?_cons, ih]
        by_cases h : name = k
        · subst h
          rw [if_pos rfl, if_pos rfl, if_neg (Ne.symm hne)]
        · rw [if_neg h, if_neg h]

theorem mem_insert {member : String × Json} (h : member ∈ members.insert key value) :
    member = (key, value) ∨ member ∈ members := by
  induction members with
  | nil => exact .inl (List.mem_singleton.mp h)
  | cons first rest ih =>
    obtain ⟨k, v⟩ := first
    rw [insert] at h
    split at h
    next => exact List.mem_cons.mp h
    next =>
      split at h
      next =>
        rcases List.mem_cons.mp h with h | h
        · exact .inl h
        · exact .inr (List.mem_cons_of_mem _ h)
      next =>
        rcases List.mem_cons.mp h with h | h
        · exact .inr (h ▸ List.mem_cons_self)
        · exact (ih h).imp id (List.mem_cons_of_mem _)

theorem insert_ne_nil (key : String) (value : Json) (members : Members) :
    members.insert key value ≠ [] := by
  cases members with
  | nil => exact List.cons_ne_nil _ _
  | cons member rest =>
    rw [insert]
    split
    · exact List.cons_ne_nil _ _
    · split <;> exact List.cons_ne_nil _ _

/-- One member alone comes of setting it where nothing else was. -/
theorem insert_eq_singleton {k : String} {v : Json} (h : members.insert key value = [(k, v)]) :
    key = k ∧ value = v ∧ (members = [] ∨ ∃ hidden, members = [(k, hidden)]) := by
  cases members with
  | nil =>
    cases h
    exact ⟨rfl, rfl, .inl rfl⟩
  | cons member rest =>
    rw [insert] at h
    split at h
    next => exact absurd (List.cons.inj h).2 (List.cons_ne_nil _ _)
    next =>
      split at h
      next heq =>
        subst heq
        cases h
        exact ⟨rfl, rfl, .inr ⟨member.2, rfl⟩⟩
      next => exact absurd (List.cons.inj h).2 (insert_ne_nil _ _ _)

theorem get?_ne_none_of_mem {member : String × Json} (h : member ∈ members) :
    members.get? member.1 ≠ none := fun hnone =>
  bne_iff_ne.mp (List.lookup_eq_none_iff.mp hnone member h) rfl

theorem Ascending.insert (h : Ascending members) (key : String) (value : Json) :
    Ascending (members.insert key value) := by
  induction members with
  | nil => exact List.pairwise_singleton _ _
  | cons first rest ih =>
    obtain ⟨k, v⟩ := first
    obtain ⟨hfirst, hrest⟩ := List.pairwise_cons.mp h
    rw [Members.insert]
    split
    next hlt =>
      refine List.pairwise_cons.mpr ⟨fun member hmember => ?_, h⟩
      rcases List.mem_cons.mp hmember with rfl | hmember
      · exact hlt
      · exact String.lt_trans hlt (hfirst member hmember)
    next hge =>
      split
      next heq =>
        subst heq
        exact List.pairwise_cons.mpr ⟨hfirst, hrest⟩
      next hne =>
        have hlt : k < key :=
          Std.lt_of_le_of_ne (String.not_lt.mp hge) (Ne.symm hne)
        refine List.pairwise_cons.mpr ⟨fun member hmember => ?_, ih hrest⟩
        rcases mem_insert hmember with rfl | hmember
        · exact hlt
        · exact hfirst member hmember

/-- What the reader makes of members is what they settle. -/
theorem settles_ofList (written : List (String × Json)) : Settles written (ofList written) := by
  unfold ofList
  induction written using List.reverseRecOn with
  | nil => exact ⟨List.Pairwise.nil, fun _ => rfl⟩
  | append_singleton written member ih =>
    rw [List.foldl_append]
    refine ⟨ih.ascending.insert _ _, fun key => ?_⟩
    rw [List.foldl_cons, List.foldl_nil, get?_insert, ih.last, lastOf, lastOf, List.reverse_append,
      List.reverse_singleton, List.singleton_append]
    exact (get?_cons member.1 member.2 _ key).symm

/-! ## One list of members for all that is held -/

theorem get?_behind {k : String} {v : Json} {rest : Members} (h : Ascending ((k, v) :: rest)) :
    get? rest k = none := by
  refine List.lookup_eq_none_iff.mpr fun member hmember => ?_
  have hlt : k < member.1 := (List.pairwise_cons.mp h).1 member hmember
  refine bne_iff_ne.mpr fun heq => String.lt_irrefl k ?_
  exact heq ▸ hlt

theorem first_le {k : String} {v : Json} {rest : Members} (h : Ascending ((k, v) :: rest))
    (hkey : get? ((k, v) :: rest) key ≠ none) : k ≤ key := by
  by_cases heq : key = k
  · exact heq ▸ String.le_refl k
  · rw [get?_cons, if_neg heq] at hkey
    obtain ⟨value, hvalue⟩ := Option.ne_none_iff_exists'.mp hkey
    obtain ⟨front, back, hrest, -⟩ := List.lookup_eq_some_iff.mp hvalue
    have hmem : (key, value) ∈ rest := by
      rw [hrest]
      exact List.mem_append_right _ List.mem_cons_self
    exact Std.le_of_lt ((List.pairwise_cons.mp h).1 _ hmem)

/-- Members that hold the same are the same. -/
theorem eq_of_get? (h : Ascending members) (hother : Ascending others)
    (hsame : ∀ key, members.get? key = others.get? key) : members = others := by
  induction members generalizing others with
  | nil =>
    cases others with
    | nil => rfl
    | cons other rest =>
      have hfound := hsame other.1
      rw [get?_cons other.1 other.2, if_pos rfl] at hfound
      cases hfound
  | cons member rest ih =>
    obtain ⟨k, v⟩ := member
    have hk := (hsame k).symm
    rw [get?_cons, if_pos rfl] at hk
    cases others with
    | nil => cases hk
    | cons other more =>
      obtain ⟨l, w⟩ := other
      have hl := hsame l
      rw [get?_cons l w, if_pos rfl] at hl
      -- each of the first keys is held by the other side, where nothing stands before the first
      obtain rfl : k = l := String.le_antisymm (first_le h (by simp [hl]))
        (first_le hother (by simp [hk]))
      rw [get?_cons, if_pos rfl] at hk
      obtain rfl : w = v := Option.some.inj hk
      have hrest : ∀ key, get? rest key = get? more key := by
        intro key
        by_cases heq : key = k
        · rw [heq, get?_behind h, get?_behind hother]
        · have hkey := hsame key
          rwa [get?_cons, get?_cons, if_neg heq, if_neg heq] at hkey
      rw [ih (List.pairwise_cons.mp h).2 (List.pairwise_cons.mp hother).2 hrest]

theorem Settles.unique {written : List (String × Json)} (h : Settles written members)
    (hother : Settles written others) : members = others :=
  eq_of_get? h.ascending hother.ascending fun key => (h.last key).trans (hother.last key).symm

theorem Settles.mem {written : List (String × Json)} (h : Settles written members)
    {member : String × Json} (hmember : member ∈ members) : member ∈ written := by
  rw [h.unique (settles_ofList written)] at hmember
  clear h
  induction written using List.reverseRecOn with
  | nil => cases hmember
  | append_singleton written last ih =>
    rw [ofList, List.foldl_append] at hmember
    rcases mem_insert hmember with rfl | hbefore
    · exact List.mem_append_right _ List.mem_cons_self
    · exact List.mem_append_left _ (ih hbefore)

/-! ## The order of members -/

theorem lastOf_cons (member : String × Json) (written : List (String × Json)) (key : String) :
    lastOf (member :: written) key =
      (lastOf written key).or (if key = member.1 then some member.2 else none) := by
  rw [lastOf, List.reverse_cons, List.lookup_append]
  exact congrArg _ (get?_cons member.1 member.2 [] key)

/-- Members in increasing order of their keys settle themselves. -/
theorem Ascending.settles (h : Ascending members) : Settles members members := by
  refine ⟨h, fun key => ?_⟩
  induction members with
  | nil => rfl
  | cons member rest ih =>
    rw [get?_cons member.1 member.2, lastOf_cons, ← ih (List.pairwise_cons.mp h).2]
    by_cases heq : key = member.1
    · rw [if_pos heq, if_pos heq, heq, get?_behind h, Option.none_or]
    · rw [if_neg heq, if_neg heq, Option.or_none]

theorem Ascending.ofList (h : Ascending members) : Members.ofList members = members :=
  (settles_ofList members).unique h.settles

/-- Two members with different keys may change places. -/
theorem lastOf_swap {first second : String × Json} (hne : first.1 ≠ second.1)
    (written : List (String × Json)) (key : String) :
    lastOf (second :: first :: written) key = lastOf (first :: second :: written) key := by
  simp only [lastOf_cons]
  by_cases hfirst : key = first.1
  · rw [if_pos hfirst, if_neg (hfirst ▸ hne), Option.or_none, Option.or_none]
  · rw [if_neg hfirst, Option.or_none, Option.or_none]

end CavityConsole.Members

namespace CavityConsole

/-- A field that is absent or `null`. -/
def Lacks (document : Document) (field : String) : Prop :=
  Members.get? document field = none ∨ Members.get? document field = some .null

variable {document : Document} {field : String}

/-- A field is lacking or holds something. -/
theorem lacks_or (document : Document) (field : String) :
    Lacks document field ∨ ∃ value, Members.get? document field = some value ∧ value ≠ .null := by
  cases h : Members.get? document field with
  | none => exact .inl (.inl h)
  | some value =>
    by_cases hvalue : value = .null
    · exact .inl (.inr (hvalue ▸ h))
    · exact .inr ⟨value, rfl, hvalue⟩

theorem not_lacks_of_get? {value : Json} (h : Members.get? document field = some value)
    (hvalue : value ≠ .null) : ¬ Lacks document field := by
  rintro (hnone | hnull)
  · cases h.symm.trans hnone
  · exact hvalue (Option.some.inj (h.symm.trans hnull))

instance (document : Document) (field : String) : Decidable (Lacks document field) :=
  match h : Members.get? document field with
  | none => .isTrue (.inl h)
  | some .null => .isTrue (.inr h)
  | some (.boolean _) | some (.number _) | some (.string _) | some (.array _) | some (.object _) =>
    .isFalse (not_lacks_of_get? h (by simp))

end CavityConsole

import CavityConsole.Proofs.Json.Arrangement
import CavityConsole.Proofs.Json.Real

/-!
# Values that are printed and read again

A value that was read keeps within bounds: its integers have 64 bits, its real numbers are finite,
the keys of its objects increase, and containers are not nested deeper than the reader goes
(`WellFormed`). Such a value is printed as a text that stands for the value itself, but for its real
numbers: each of them is read as `reread` tells (`fragment_text`). The induction is on the value,
with one fragment for each constructor.

**The law** (`parse_compact`): the text of a value that was read is read as the value with its real
numbers read again. That is the same value exactly when each of these is read as itself
(`mapReals_eq_self_iff`).
-/

namespace CavityConsole.Json

mutual

/-- A value with every real number changed, and everything else as it is. -/
def mapReals (change : Double → Double) : Json → Json
  | .null => .null
  | .boolean b => .boolean b
  | .number (.integer i) => .number (.integer i)
  | .number (.real x) => .number (.real (change x))
  | .string s => .string s
  | .array elements => .array (elementsMapReals change elements)
  | .object members => .object (membersMapReals change members)

/-- A list of values with every real number changed. -/
def elementsMapReals (change : Double → Double) : List Json → List Json
  | [] => []
  | element :: rest => mapReals change element :: elementsMapReals change rest

/-- A list of members with every real number changed. -/
def membersMapReals (change : Double → Double) : List (String × Json) → List (String × Json)
  | [] => []
  | (key, value) :: rest => (key, mapReals change value) :: membersMapReals change rest

end

/-- A real number stands somewhere within a value. -/
inductive HasReal (x : Double) : Json → Prop where
  | here : HasReal x (.number (.real x))
  | element {elements : List Json} {v : Json} (element : v ∈ elements) (within : HasReal x v) :
    HasReal x (.array elements)
  | member {members : List (String × Json)} {m : String × Json} (member : m ∈ members)
    (within : HasReal x m.2) : HasReal x (.object members)

/-- A value keeps within the bounds of the reader, with at most so many containers within one
another. -/
inductive WellFormed : (depth : Nat) → Json → Prop where
  | null {depth : Nat} : WellFormed depth .null
  | boolean {depth : Nat} (b : Bool) : WellFormed depth (.boolean b)
  | integer {depth : Nat} {i : Int} (least : -(2 ^ 63 : Int) ≤ i) (greatest : i < (2 ^ 64 : Int)) :
    WellFormed depth (.number (.integer i))
  | real {depth : Nat} {x : Double} (finite : x.isFinite = true) :
    WellFormed depth (.number (.real x))
  | string {depth : Nat} (s : String) : WellFormed depth (.string s)
  | array {depth : Nat} {elements : List Json} (elementwise : ∀ v ∈ elements, WellFormed depth v) :
    WellFormed (depth + 1) (.array elements)
  | object {depth : Nat} {members : Members} (ascending : members.Ascending)
    (memberwise : ∀ m ∈ members, WellFormed depth m.2) : WellFormed (depth + 1) (.object members)

/-! ## Lists of items -/

section

variable (change : Double → Double)

theorem elementsMapReals_eq (elements : List Json) :
    elementsMapReals change elements = elements.map (mapReals change) := by
  induction elements with
  | nil => rfl
  | cons element rest ih => rw [elementsMapReals, ih, List.map_cons]

theorem membersMapReals_eq (members : List (String × Json)) :
    membersMapReals change members = members.map fun m => (m.1, mapReals change m.2) := by
  induction members with
  | nil => rfl
  | cons m rest ih => rw [membersMapReals, ih, List.map_cons]

@[simp] theorem mapReals_array (elements : List Json) :
    mapReals change (.array elements) = .array (elements.map (mapReals change)) := by
  rw [mapReals, elementsMapReals_eq]

@[simp] theorem mapReals_object (members : List (String × Json)) :
    mapReals change (.object members) =
      .object (members.map fun m => (m.1, mapReals change m.2)) := by
  rw [mapReals, membersMapReals_eq]

end

theorem elementTexts_eq (done : List (List Char)) (elements : List Json) :
    elementTexts done elements = done.reverse ++ elements.map text := by
  induction elements generalizing done with
  | nil => exact (List.append_nil _).symm
  | cons element rest ih =>
    rw [elementTexts, ih, List.reverse_cons, List.append_assoc, List.singleton_append,
      List.map_cons]

theorem memberTexts_eq (done : List (String × List Char)) (members : List (String × Json)) :
    memberTexts done members = done.reverse ++ members.map fun m => (m.1, text m.2) := by
  induction members generalizing done with
  | nil => exact (List.append_nil _).symm
  | cons m rest ih =>
    rw [memberTexts, ih, List.reverse_cons, List.append_assoc, List.singleton_append,
      List.map_cons]

@[simp] theorem text_array (elements : List Json) :
    text (.array elements) = arrayText (elements.map text) := by
  rw [text, elementTexts_eq, List.reverse_nil, List.nil_append]

@[simp] theorem text_object (members : List (String × Json)) :
    text (.object members) = objectText (members.map fun m => (m.1, text m.2)) := by
  rw [text, memberTexts_eq, List.reverse_nil, List.nil_append]

/-! ## What the reader gives is well formed -/

theorem isFinite_neg (x : Double) : (-x).isFinite = x.isFinite := rfl

theorem scientific_lt (n : Numeral) : n.scientific.1 < significandBound := by
  unfold Numeral.scientific
  cases n.fraction with
  | none => exact gather_fresh_lt _
  | some digits => exact gather_lt digits (gather_fresh_lt _)

theorem wellFormed_of_reads {n : Numeral} {number : Number} (h : n.Reads number) (depth : Nat) :
    WellFormed depth (.number number) := by
  cases h with
  | integer h => exact .integer h.least h.greatest
  | real _ hscaled =>
    have hfinite := Decimal.isFinite_scaled (scientific_lt n) hscaled
    refine .real ?_
    split
    · rw [isFinite_neg, hfinite]
    · exact hfinite

theorem Scalar.wellFormed {tokens : List Token} {v : Json} (h : Scalar tokens v) (depth : Nat) :
    WellFormed depth v := by
  cases h with
  | null => exact .null
  | boolean b => exact .boolean b
  | string _ => exact .string _
  | number _ hread => exact wellFormed_of_reads hread depth

/-- **A value that tokens stand for is well formed.** -/
theorem Denotes.wellFormed {depth : Nat} {tokens : List Token} {v : Json}
    (h : Denotes depth tokens v) : WellFormed depth v := by
  induction depth generalizing tokens v with
  | zero => exact Scalar.wellFormed h 0
  | succ depth ih =>
    rcases h with h | h
    · exact h.wellFormed _
    · cases h with
      | @list items elements hread =>
        have helements := (List.forall₂_and_left elements items).mp
          (hread.flip.imp fun v item hitem => ⟨ih hitem, hitem⟩)
        exact .array helements.1
      | @object entries written members hread hsettled =>
        have hwritten := (List.forall₂_and_left written entries).mp
          (hread.flip.imp fun m entry hentry => ⟨ih hentry.2, hentry⟩)
        exact .object hsettled.ascending fun m hm => hwritten.1 m (hsettled.mem hm)

/-! ## Reading again -/

/-- **A well-formed value is printed as a text that is read as it**, with its real numbers read
again. -/
theorem fragment_text {depth : Nat} {v : Json} (h : WellFormed depth v) :
    Fragment depth v.text (v.mapReals reread) := by
  induction h with
  | null => exact fragment_null _
  | boolean b => exact fragment_boolean _ b
  | integer hleast hgreatest => exact fragment_integer _ hleast hgreatest
  | real hfinite => exact fragment_realText _ hfinite
  | string s => exact fragment_string _ s
  | array _ ih =>
    rw [text_array, mapReals_array]
    refine fragment_array ?_
    rw [List.forall₂_map_left_iff, List.forall₂_map_right_iff, List.forall₂_same]
    exact ih
  | @object _ members hascending _ ih =>
    rw [text_object, mapReals_object]
    have hkeys : Members.Ascending (members.map fun m => (m.1, mapReals reread m.2)) :=
      List.pairwise_map.mpr hascending
    rw [← hkeys.ofList]
    refine fragment_object ?_
    rw [List.forall₂_map_left_iff, List.forall₂_map_right_iff, List.forall₂_same]
    exact fun m hm => ⟨rfl, ih m hm⟩

/-- A real number of a list or an object stands within one of its items. -/
theorem forall_hasReal_array {elements : List Json} {p : Double → Prop} :
    (∀ x, HasReal x (.array elements) → p x) ↔ ∀ v ∈ elements, ∀ x, HasReal x v → p x := by
  constructor
  · exact fun h v hv x hx => h x (.element hv hx)
  · rintro h x (_ | ⟨hv, hx⟩ | _)
    exact h _ hv x hx

theorem forall_hasReal_object {members : List (String × Json)} {p : Double → Prop} :
    (∀ x, HasReal x (.object members) → p x) ↔ ∀ m ∈ members, ∀ x, HasReal x m.2 → p x := by
  constructor
  · exact fun h m hm x hx => h x (.member hm hx)
  · rintro h x (_ | _ | ⟨hm, hx⟩)
    exact h _ hm x hx

theorem WellFormed.isFinite {depth : Nat} {v : Json} (h : WellFormed depth v) :
    ∀ x, HasReal x v → x.isFinite = true := by
  induction h with
  | null | boolean | integer | string => rintro x ⟨⟩
  | real hfinite =>
    rintro x ⟨⟩
    exact hfinite
  | array _ ih => exact forall_hasReal_array.mpr ih
  | object _ _ ih => exact forall_hasReal_object.mpr ih

theorem map_eq_self_iff {α : Type} {f : α → α} {list : List α} :
    list.map f = list ↔ ∀ a ∈ list, f a = a := by
  conv_lhs =>
    rhs
    rw [← List.map_id list]
  exact List.map_inj_left

/-- Changing the real numbers of a value leaves it as it is exactly when they are left as they
are. -/
theorem mapReals_eq_self_iff (change : Double → Double) {depth : Nat} {v : Json}
    (h : WellFormed depth v) : mapReals change v = v ↔ ∀ x, HasReal x v → change x = x := by
  induction h with
  | null | boolean | integer | string =>
    refine ⟨fun _ => ?_, fun _ => rfl⟩
    rintro x ⟨⟩
  | @real _ x _ =>
    constructor
    · rintro h y ⟨⟩
      exact Number.real.inj (Json.number.inj h)
    · intro h
      rw [mapReals, h x .here]
  | array _ ih =>
    rw [mapReals_array, forall_hasReal_array, Json.array.injEq, map_eq_self_iff]
    exact forall₂_congr ih
  | object _ _ ih =>
    rw [mapReals_object, forall_hasReal_object, Json.object.injEq, map_eq_self_iff]
    refine forall₂_congr fun m hm => ?_
    rw [← ih m hm, Prod.ext_iff]
    exact and_iff_right rfl

/-- **The text of a value that was read is read as that value**, with its real numbers read
again. -/
theorem parse_compact {v : Json} (h : WellFormed maxDepth v) :
    parse v.compact = .ok (v.mapReals reread) :=
  (fragment_text h).parse

end CavityConsole.Json

import CavityConsole.Notification.Decoding
import CavityConsole.Proofs.Json.Members

/-!
# The members that notifications are read from

A member of a document is taken for a value of its type (`Holds`) or it is refused with an error
(`MemberType.fault`); one of the two happens, and never both. A member that is absent or `null` is
unset and shows as nothing.

There is one lemma for each reader of fields (`Reads`): it reports the fault of its member, or it
gives what the member holds.
-/

namespace CavityConsole.Notification

open Json

/-- What a member may hold. -/
inductive MemberType where
  | text
  | flag
  | whole (low high : Int)
  | time
  | job

/-- A member of a document that notifications are read from. -/
structure Member where
  name : String
  type : MemberType

/-- What a member holds. -/
inductive Held where
  | text (s : String)
  | flag (b : Bool)
  | whole (i : Int)
  | time (t : Timestamp)
  | job (job : Job)

/-- What a value is taken for. Strings, truth values and whole numbers are taken as they are. -/
inductive Holds : MemberType → Json → Held → Prop where
  | text (s : String) : Holds .text (.string s) (.text s)
  | flag (b : Bool) : Holds .flag (.boolean b) (.flag b)
  | whole {low high i : Int} (hlow : low ≤ i) (hhigh : i ≤ high) :
    Holds (.whole low high) (.number (.integer i)) (.whole i)
  | time {s : String} {t : Timestamp} (h : Timestamp.parse? s = some t) :
    Holds .time (.string s) (.time t)
  | job {value : Json} {job : Job} (h : Job.ofJson value = .ok job) : Holds .job value (.job job)

/-- Why a value of the member `name` is refused, if it is. -/
def MemberType.fault (name : String) : MemberType → Json → Option NotificationError
  | .text, .string _ => none
  | .text, other => some (.wrongType name .string other.typeName)
  | .flag, .boolean _ => none
  | .flag, other => some (.wrongType name .boolean other.typeName)
  | .whole low high, .number (.integer i) =>
    if low ≤ i ∧ i ≤ high then none else some (.invalidInteger name (.integer i))
  | .whole _ _, .number (.real x) => some (.invalidInteger name (.real x))
  | .whole _ _, other => some (.wrongType name .integer other.typeName)
  | .time, .string s =>
    match Timestamp.parse? s with
    | some _ => none
    | none => some (.invalidTimestamp name)
  | .time, other => some (.wrongType name .string other.typeName)
  | .job, value =>
    match Job.ofJson value with
    | .ok _ => none
    | .error mismatch => some (.invalidJob mismatch)

/-- A value is not refused when it is taken for something. -/
theorem Holds.fault {type : MemberType} {value : Json} {held : Held} (h : Holds type value held)
    (name : String) : type.fault name value = none := by
  cases h with
  | text s => rfl
  | flag b => rfl
  | whole hlow hhigh => exact if_pos ⟨hlow, hhigh⟩
  | time h => simp only [MemberType.fault, h]
  | job h => simp only [MemberType.fault, h]

/-- A value is taken for one thing at most. -/
theorem Holds.unique {type : MemberType} {value : Json} {a b : Held} (ha : Holds type value a)
    (hb : Holds type value b) : a = b := by
  cases ha with
  | text s => cases hb; rfl
  | flag b => cases hb; rfl
  | whole _ _ => cases hb; rfl
  | time ha =>
    cases hb with
    | time hb => exact congrArg Held.time (Option.some.inj (ha.symm.trans hb))
  | job ha =>
    cases hb with
    | job hb => exact congrArg Held.job (Except.ok.inj (ha.symm.trans hb))

/-- `null` is taken for nothing. -/
theorem Holds.ne_null {type : MemberType} {value : Json} {held : Held} (h : Holds type value held) :
    value ≠ .null := by
  rintro rfl
  cases h with
  | job h => cases h

/-! ## Members of a document -/

/-- Why a document is refused for a member, if it is. -/
def faultIn (document : Document) (member : Member) : Option NotificationError :=
  match Members.get? document member.name with
  | none | some .null => none
  | some value => member.type.fault member.name value

/-- What a field shows of a member: nothing when it is unset, and otherwise what it holds. -/
inductive ShownAs (document : Document) (member : Member) : String × Option Held → Prop where
  | unset (h : Lacks document member.name) : ShownAs document member (member.name, none)
  | held {value : Json} {held : Held} (h : Members.get? document member.name = some value)
    (hheld : Holds member.type value held) : ShownAs document member (member.name, some held)

section

variable {document : Document}

theorem field?_of_get? {name : String} {value : Json} (h : Members.get? document name = some value)
    (hvalue : value ≠ .null) : field? document name = some value := by
  rw [field?, h]
  cases value with
  | null => exact absurd rfl hvalue
  | _ => rfl

theorem get?_of_field? {name : String} {value : Json} (h : field? document name = some value) :
    Members.get? document name = some value ∧ value ≠ .null := by
  obtain ⟨hget, hvalue⟩ := Option.filter_eq_some_iff.mp h
  refine ⟨hget, ?_⟩
  rintro rfl
  cases hvalue

/-- A field is read exactly when it does not lack. -/
theorem field?_eq_none_iff {name : String} : field? document name = none ↔ Lacks document name := by
  constructor
  · intro h
    rcases lacks_or document name with hlacks | ⟨value, hvalue, hnull⟩
    · exact hlacks
    · cases (field?_of_get? hvalue hnull).symm.trans h
  · rintro (h | h) <;> rw [field?, h] <;> rfl

theorem faultIn_of_lacks {member : Member} (h : Lacks document member.name) :
    faultIn document member = none := by
  rcases h with h | h <;> rw [faultIn, h]

theorem faultIn_of_get? (member : Member) {value : Json}
    (h : Members.get? document member.name = some value) (hvalue : value ≠ .null) :
    faultIn document member = member.type.fault member.name value := by
  rw [faultIn, h]
  cases value with
  | null => exact absurd rfl hvalue
  | _ => rfl

theorem ShownAs.faultIn {member : Member} {entry : String × Option Held}
    (h : ShownAs document member entry) : faultIn document member = none := by
  cases h with
  | unset h => exact faultIn_of_lacks h
  | held h hheld => rw [faultIn_of_get? member h hheld.ne_null, hheld.fault]

theorem ShownAs.unique {member : Member} {a b : String × Option Held}
    (ha : ShownAs document member a) (hb : ShownAs document member b) : a = b := by
  cases ha with
  | unset ha =>
    cases hb with
    | unset => rfl
    | held hb hheld => exact absurd ha (not_lacks_of_get? hb hheld.ne_null)
  | held ha haheld =>
    cases hb with
    | unset hb => exact absurd hb (not_lacks_of_get? ha haheld.ne_null)
    | held hb hbheld =>
      obtain rfl : _ = _ := Option.some.inj (ha.symm.trans hb)
      rw [haheld.unique hbheld]

end

/-! ## Readers -/

/-- A reader of a member reports its fault, or gives what it holds. -/
def Reads {α : Type} (document : Document) (member : Member) (hold : α → Held) :
    Except NotificationError (Option α) → Prop
  | .error error => faultIn document member = some error
  | .ok a => faultIn document member = none ∧
      ShownAs document member (member.name, a.map hold)

section

variable {α : Type} {document : Document} {member : Member} {hold : α → Held}

theorem reads_none (h : field? document member.name = none) :
    Reads document member hold (.ok none) := by
  have hlacks := field?_eq_none_iff.mp h
  exact ⟨faultIn_of_lacks hlacks, .unset hlacks⟩

theorem reads_some {value : Json} {a : α} (h : field? document member.name = some value)
    (hheld : Holds member.type value (hold a)) : Reads document member hold (.ok (some a)) := by
  have hshown := ShownAs.held (get?_of_field? h).1 hheld
  exact ⟨hshown.faultIn, hshown⟩

theorem reads_error {value : Json} {error : NotificationError}
    (h : field? document member.name = some value)
    (hfault : member.type.fault member.name value = some error) :
    Reads document member hold (.error error) := by
  obtain ⟨hget, hvalue⟩ := get?_of_field? h
  exact (faultIn_of_get? member hget hvalue).trans hfault

end

variable (document : Document) (name : String)

theorem reads_stringField :
    Reads document ⟨name, .text⟩ .text (stringField document name) := by
  unfold stringField
  split
  next h => exact reads_none h
  next s h => exact reads_some h (.text s)
  next other hother h =>
    refine reads_error h ?_
    cases other with
    | string s => exact absurd rfl (hother s)
    | _ => rfl

theorem reads_booleanField :
    Reads document ⟨name, .flag⟩ .flag (booleanField document name) := by
  unfold booleanField
  split
  next h => exact reads_none h
  next b h => exact reads_some h (.flag b)
  next other hother h =>
    refine reads_error h ?_
    cases other with
    | boolean b => exact absurd rfl (hother b)
    | _ => rfl

/-- Whole numbers in a type that has room for all of the range. -/
theorem reads_integerField {α : Type} {low high : Int} {ofInt : Int → α} {toInt : α → Int}
    (hexact : ∀ i, low ≤ i → i ≤ high → toInt (ofInt i) = i) :
    Reads document ⟨name, .whole low high⟩ (fun a => .whole (toInt a))
      ((integerField document name low high).map (Option.map ofInt)) := by
  unfold integerField
  split
  next h => exact reads_none h
  next i h =>
    split
    next hrange =>
      have hheld : Holds (.whole low high) (.number (.integer i)) (.whole (toInt (ofInt i))) := by
        rw [hexact i hrange.1 hrange.2]
        exact .whole hrange.1 hrange.2
      exact reads_some h hheld
    next hrange => exact reads_error h (if_neg hrange)
  next x h => exact reads_error h rfl
  next other hinteger hreal h =>
    refine reads_error h ?_
    cases other with
    | number n =>
      cases n with
      | integer i => exact absurd rfl (hinteger i)
      | real x => exact absurd rfl (hreal x)
    | _ => rfl

theorem reads_int64Field :
    Reads document ⟨name, .whole Int64.minValue.toInt Int64.maxValue.toInt⟩
      (fun i => .whole i.toInt) (int64Field document name) :=
  reads_integerField document name fun _ hlow hhigh =>
    Int64.toInt_ofInt_of_le hlow (Int.lt_of_le_sub_one hhigh)

theorem reads_int32Field :
    Reads document ⟨name, .whole Int32.minValue.toInt Int32.maxValue.toInt⟩
      (fun i => .whole i.toInt) (int32Field document name) :=
  reads_integerField document name fun _ hlow hhigh =>
    Int32.toInt_ofInt_of_le hlow (Int.lt_of_le_sub_one hhigh)

theorem reads_timestampField :
    Reads document ⟨name, .time⟩ .time (timestampField document name) := by
  unfold timestampField stringField
  cases h : field? document name with
  | none => exact reads_none h
  | some value =>
    cases value with
    | string s =>
      cases htime : Timestamp.parse? s with
      | some t =>
        simp only [bind, Except.bind, htime]
        exact reads_some h (.time htime)
      | none =>
        simp only [bind, Except.bind, htime]
        refine reads_error h ?_
        simp only [MemberType.fault, htime]
    | _ => exact reads_error h rfl

end CavityConsole.Notification

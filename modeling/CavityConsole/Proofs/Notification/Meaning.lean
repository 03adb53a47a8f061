import CavityConsole.Proofs.Notification.Members
import Mathlib.Data.List.Forall2

/-!
# What a document means as a notification

`membersOf` lists the members of each kind of notification in the order in which they are read.
`Means` says what a document comes to, without saying how it is read: the first refused member is
the error, and otherwise every field of the notification shows its member.

**The law** (`ofDocument_iff_means`): decoding a document gives exactly what it means. Nothing but
the members of its kind has a part in that, and without a job nothing but `job` itself.

A decoder reads one member after the other, so its correctness is one step (`settles_bind`) taken
along the list of members.
-/

namespace CavityConsole.Notification

/-- The members of a kind of notification in the order in which they are read. -/
def membersOf : String → Option (List Member)
  | "status" => some [⟨"message", .text⟩, ⟨"error", .flag⟩]
  | "paused" => some [⟨"paused", .flag⟩]
  | "loop" => some [⟨"count", .whole Int32.minValue.toInt Int32.maxValue.toInt⟩]
  | "cavity" => some [⟨"name", .text⟩, ⟨"start", .time⟩]
  | "progress" =>
    some [⟨"value", .whole Int32.minValue.toInt Int32.maxValue.toInt⟩, ⟨"label", .text⟩]
  | "job" =>
    some
      [⟨"job", .job⟩,
       ⟨"job-id", .whole Int64.minValue.toInt Int64.maxValue.toInt⟩,
       ⟨"start", .time⟩,
       ⟨"paused", .flag⟩,
       ⟨"loop", .whole Int32.minValue.toInt Int32.maxValue.toInt⟩,
       ⟨"cavity", .text⟩,
       ⟨"cavity-start", .time⟩,
       ⟨"progress", .whole Int32.minValue.toInt Int32.maxValue.toInt⟩,
       ⟨"label", .text⟩]
  | _ => none

/-- The fields of a notification under the names of their members. Those of a job are what its
report says, nothing when there is no job. -/
def fields : Notification → List (String × Option Held)
  | .status message error => [("message", message.map .text), ("error", error.map .flag)]
  | .paused state => [("paused", state.map .flag)]
  | .loop count => [("count", count.map fun i => .whole i.toInt)]
  | .cavity name start => [("name", name.map .text), ("start", start.map .time)]
  | .progress value label =>
    [("value", value.map fun i => .whole i.toInt), ("label", label.map .text)]
  | .job report =>
    [("job", (JobReport.said (some ·.job) report).map .job),
     ("job-id", (JobReport.said (·.id) report).map fun i => .whole i.toInt),
     ("start", (JobReport.said (·.start) report).map .time),
     ("paused", (JobReport.said (·.paused) report).map .flag),
     ("loop", (JobReport.said (·.loop) report).map fun i => .whole i.toInt),
     ("cavity", (JobReport.said (·.cavity) report).map .text),
     ("cavity-start", (JobReport.said (·.cavityStart) report).map .time),
     ("progress", (JobReport.said (·.progress) report).map fun i => .whole i.toInt),
     ("label", (JobReport.said (·.label) report).map .text)]

/-- What a document comes to as a notification. -/
inductive Means (document : Document) : Except NotificationError Notification → Prop where
  /-- The kind is unset. -/
  | untyped (h : Lacks document "notification") : Means document (.error .missingType)
  /-- The kind is no string. -/
  | wrongType {value : Json} (h : Members.get? document "notification" = some value)
    (hnull : value ≠ .null) (hvalue : ∀ s, value ≠ .string s) :
    Means document (.error (.wrongType "notification" .string value.typeName))
  /-- The kind is none of the six. -/
  | unknown {kind : String} (h : Members.get? document "notification" = some (.string kind))
    (hkind : membersOf kind = none) : Means document (.error (.unknownType kind))
  /-- No job is set; what stands beside it is not looked at. -/
  | idle (h : Members.get? document "notification" = some (.string "job"))
    (hjob : Lacks document "job") : Means document (.ok idle)
  /-- A member of the kind is refused, and none before it. -/
  | refused {kind : String} {members : List Member} {error : NotificationError}
    (h : Members.get? document "notification" = some (.string kind))
    (hkind : membersOf kind = some members) (hjob : kind = "job" → ¬ Lacks document "job")
    (hfirst : members.findSome? (faultIn document) = some error) : Means document (.error error)
  /-- No member is refused, and every field shows its member. -/
  | read {kind : String} {members : List Member} {notification : Notification}
    (h : Members.get? document "notification" = some (.string kind))
    (hkind : membersOf kind = some members) (hjob : kind = "job" → ¬ Lacks document "job")
    (hsame : notification.kind = kind)
    (hfields : List.Forall₂ (ShownAs document) members notification.fields) :
    Means document (.ok notification)

/-! ## Reading member after member -/

/-- What is read for some members of a document, after the fields that are done: the first fault, or
something that `finish` makes a notification of the kind with fields that show the members. -/
def Settles {β : Type} (document : Document) (finish : β → Notification) (kind : String)
    (done : List (String × Option Held)) (members : List Member) :
    Except NotificationError β → Prop
  | .error error => members.findSome? (faultIn document) = some error
  | .ok b =>
    (finish b).kind = kind ∧ ∃ shown, List.Forall₂ (ShownAs document) members shown ∧
      (finish b).fields = done ++ shown

section

variable {α β : Type} {document : Document} {finish : β → Notification} {kind : String}
  {done : List (String × Option Held)}

theorem settles_ok {b : β} (hkind : (finish b).kind = kind) (hfields : (finish b).fields = done) :
    Settles document finish kind done [] (.ok b) :=
  ⟨hkind, [], .nil, by rw [hfields, List.append_nil]⟩

/-- A member that shows as a field, and the members behind it. -/
theorem settles_shown {member : Member} {members : List Member} {entry : String × Option Held}
    {program : Except NotificationError β} (hshown : ShownAs document member entry)
    (h : Settles document finish kind (done ++ [entry]) members program) :
    Settles document finish kind done (member :: members) program := by
  cases program with
  | error error =>
    show (member :: members).findSome? (faultIn document) = some error
    rw [List.findSome?_cons, hshown.faultIn]
    exact h
  | ok b =>
    obtain ⟨hkind, shown, hmembers, hfields⟩ := h
    refine ⟨hkind, entry :: shown, .cons hshown hmembers, ?_⟩
    rw [hfields, List.append_assoc, List.singleton_append]

/-- **One step of reading**: a member is read, and what was read is there for what follows. -/
theorem settles_bind {member : Member} {members : List Member} {hold : α → Held}
    {reader : Except NotificationError (Option α)} {next : Option α → Except NotificationError β}
    (hread : Reads document member hold reader)
    (hnext : ∀ a, Settles document finish kind (done ++ [(member.name, a.map hold)]) members
      (next a)) :
    Settles document finish kind done (member :: members) (reader >>= next) := by
  cases reader with
  | error error =>
    show (member :: members).findSome? (faultIn document) = some error
    rw [List.findSome?_cons, hread]
  | ok a => exact settles_shown hread.2 (hnext a)

theorem settles_map {member : Member} {hold : α → Held} {make : Option α → β}
    {reader : Except NotificationError (Option α)} (hread : Reads document member hold reader)
    (hkind : ∀ a, (finish (make a)).kind = kind)
    (hfields : ∀ a, (finish (make a)).fields = done ++ [(member.name, a.map hold)]) :
    Settles document finish kind done [member] (reader.map make) := by
  have hnext : ∀ a, Settles document finish kind (done ++ [(member.name, a.map hold)]) []
      (.ok (make a)) := fun a => settles_ok (hkind a) (hfields a)
  have hstep := settles_bind hread hnext
  cases reader with
  | error error => exact hstep
  | ok a => exact hstep

end

/-! ## The six kinds -/

variable {document : Document}

theorem settles_job {value : Json} (h : Members.get? document "job" = some value)
    (hnull : value ≠ .null) {members : List Member} (hmembers : membersOf "job" = some members) :
    Settles document .job "job" [] members (jobOfDocument document) := by
  cases hmembers
  unfold jobOfDocument
  rw [field?_of_get? h hnull]
  dsimp only
  cases hjob : Job.ofJson value with
  | error mismatch =>
    show List.findSome? _ _ = _
    have hfault : faultIn document ⟨"job", .job⟩ = some (.invalidJob mismatch) := by
      rw [faultIn_of_get? ⟨"job", .job⟩ h hnull]
      simp only [MemberType.fault, hjob]
    rw [List.findSome?_cons, hfault]
  | ok current =>
    refine settles_shown (.held h (.job hjob)) ?_
    refine settles_bind (reads_int64Field document _) fun id => ?_
    refine settles_bind (reads_timestampField document _) fun start => ?_
    refine settles_bind (reads_booleanField document _) fun paused => ?_
    refine settles_bind (reads_int32Field document _) fun loop => ?_
    refine settles_bind (reads_stringField document _) fun cavity => ?_
    refine settles_bind (reads_timestampField document _) fun cavityStart => ?_
    refine settles_bind (reads_int32Field document _) fun progress => ?_
    refine settles_bind (reads_stringField document _) fun label => ?_
    exact settles_ok rfl rfl

/-- A kind of notification is read from its members. -/
theorem settles_ofKind {kind : String} {members : List Member}
    (hmembers : membersOf kind = some members) (hjob : kind = "job" → ¬ Lacks document "job") :
    Settles document id kind [] members (ofKind document kind) := by
  unfold ofKind
  split
  · cases hmembers
    refine settles_bind (reads_stringField document _) fun message => ?_
    refine settles_bind (reads_booleanField document _) fun error => ?_
    exact settles_ok rfl rfl
  · obtain ⟨value, hvalue, hnull⟩ := (lacks_or document "job").resolve_left (hjob rfl)
    have hsettles := settles_job hvalue hnull hmembers
    cases hread : jobOfDocument document with
    | error error => rwa [hread] at hsettles
    | ok report => rwa [hread] at hsettles
  · cases hmembers
    exact settles_map (reads_booleanField document _) (fun _ => rfl) (fun _ => rfl)
  · cases hmembers
    exact settles_map (reads_int32Field document _) (fun _ => rfl) (fun _ => rfl)
  · cases hmembers
    refine settles_bind (reads_stringField document _) fun name => ?_
    refine settles_bind (reads_timestampField document _) fun start => ?_
    exact settles_ok rfl rfl
  · cases hmembers
    refine settles_bind (reads_int32Field document _) fun value => ?_
    refine settles_bind (reads_stringField document _) fun label => ?_
    exact settles_ok rfl rfl
  next hstatus hrunning hpaused hloop hcavity hprogress =>
    -- no other kind has members
    unfold membersOf at hmembers
    split at hmembers
    all_goals contradiction

theorem ofKind_of_unknown {kind : String} (h : membersOf kind = none) :
    ofKind document kind = .error (.unknownType kind) := by
  unfold ofKind
  split
  next => cases h
  next => cases h
  next => cases h
  next => cases h
  next => cases h
  next => cases h
  next => rfl

/-! ## The whole document -/

theorem ofDocument_of_untyped (h : Lacks document "notification") :
    ofDocument document = .error .missingType := by
  unfold ofDocument stringField
  rw [field?_eq_none_iff.mpr h]
  rfl

theorem ofDocument_of_kind {kind : String}
    (h : Members.get? document "notification" = some (.string kind)) :
    ofDocument document = ofKind document kind := by
  unfold ofDocument stringField
  rw [field?_of_get? h nofun]
  rfl

theorem ofDocument_of_wrongType {value : Json}
    (h : Members.get? document "notification" = some value) (hnull : value ≠ .null)
    (hvalue : ∀ s, value ≠ .string s) :
    ofDocument document = .error (.wrongType "notification" .string value.typeName) := by
  unfold ofDocument stringField
  rw [field?_of_get? h hnull]
  cases value with
  | string s => exact absurd rfl (hvalue s)
  | _ => rfl

theorem ofDocument_of_idle (h : Members.get? document "notification" = some (.string "job"))
    (hjob : Lacks document "job") : ofDocument document = .ok idle := by
  rw [ofDocument_of_kind h]
  show (jobOfDocument document).map Notification.job = _
  rw [jobOfDocument, field?_eq_none_iff.mpr hjob]
  rfl

/-- What is read of a kind is what the document means. -/
theorem means_ofKind {kind : String} {members : List Member}
    (h : Members.get? document "notification" = some (.string kind))
    (hkind : membersOf kind = some members) (hjob : kind = "job" → ¬ Lacks document "job") :
    Means document (ofKind document kind) := by
  have hsettles := settles_ofKind hkind hjob
  cases hread : ofKind document kind with
  | error error =>
    rw [hread] at hsettles
    exact .refused h hkind hjob hsettles
  | ok notification =>
    rw [hread] at hsettles
    obtain ⟨hsame, shown, hshown, hfields⟩ := hsettles
    refine .read h hkind hjob hsame ?_
    rwa [show notification.fields = shown from hfields]

/-- What is read of a document with a kind is what it means. -/
theorem means_of_kind {kind : String}
    (h : Members.get? document "notification" = some (.string kind)) :
    Means document (ofDocument document) := by
  cases hkind : membersOf kind with
  | none =>
    rw [ofDocument_of_kind h, ofKind_of_unknown hkind]
    exact .unknown h hkind
  | some members =>
    by_cases hidle : kind = "job" ∧ Lacks document "job"
    · obtain ⟨rfl, hjob⟩ := hidle
      rw [ofDocument_of_idle h hjob]
      exact .idle h hjob
    · rw [ofDocument_of_kind h]
      exact means_ofKind h hkind fun hsame hjob => hidle ⟨hsame, hjob⟩

/-- Decoding gives something that the document means. -/
theorem means_ofDocument (document : Document) : Means document (ofDocument document) := by
  rcases lacks_or document "notification" with hlacks | ⟨value, hvalue, hnull⟩
  · rw [ofDocument_of_untyped hlacks]
    exact .untyped hlacks
  · cases value with
    | string kind => exact means_of_kind hvalue
    | _ =>
      rw [ofDocument_of_wrongType hvalue hnull nofun]
      exact .wrongType hvalue hnull nofun

/-! ## A document means one thing -/

theorem findSome?_of_shown {members : List Member} {shown : List (String × Option Held)}
    (h : List.Forall₂ (ShownAs document) members shown) :
    members.findSome? (faultIn document) = none :=
  List.findSome?_eq_none_iff.mpr
    ((List.forall₂_and_left members shown).mp (h.imp fun _ _ hread => ⟨hread.faultIn, hread⟩)).1

theorem shown_unique {members : List Member} {a b : List (String × Option Held)}
    (ha : List.Forall₂ (ShownAs document) members a)
    (hb : List.Forall₂ (ShownAs document) members b) : a = b :=
  List.right_unique_forall₂' (fun _ _ _ hshown hshown' => hshown.unique hshown') ha hb

theorem text_injective : Function.Injective (Option.map Held.text) :=
  Option.map_injective fun _ _ h => Held.text.inj h

theorem flag_injective : Function.Injective (Option.map Held.flag) :=
  Option.map_injective fun _ _ h => Held.flag.inj h

theorem time_injective : Function.Injective (Option.map Held.time) :=
  Option.map_injective fun _ _ h => Held.time.inj h

theorem whole_injective : Function.Injective (Option.map fun i : Int32 => Held.whole i.toInt) :=
  Option.map_injective fun _ _ h => Int32.toInt_inj.mp (Held.whole.inj h)

/-- A report is what it says. -/
theorem report_eq {a b : Option JobReport} (h : fields (.job a) = fields (.job b)) : a = b := by
  simp only [fields, List.cons.injEq, Prod.mk.injEq, true_and, and_true] at h
  obtain ⟨hjob, hid, hstart, hpaused, hloop, hcavity, hcavityStart, hprogress, hlabel⟩ := h
  cases a with
  | none =>
    cases b with
    | none => rfl
    | some b => cases hjob
  | some a =>
    cases b with
    | none => cases hjob
    | some b =>
      have hid := Option.map_injective
        (fun _ _ h => Int64.toInt_inj.mp (Held.whole.inj h)) hid
      have hstart := time_injective hstart
      have hpaused := flag_injective hpaused
      have hloop := whole_injective hloop
      have hcavity := text_injective hcavity
      have hcavityStart := time_injective hcavityStart
      have hprogress := whole_injective hprogress
      have hlabel := text_injective hlabel
      cases a
      cases b
      simp only [JobReport.said, Option.bind_some, Option.map_some, Option.some.injEq,
        Held.job.injEq] at *
      simp only [*]

/-- A notification is its kind and its fields. -/
theorem eq_of_fields {a b : Notification} (hkind : a.kind = b.kind) (h : a.fields = b.fields) :
    a = b := by
  cases a with
  | status message error =>
    cases b with
    | status =>
      simp only [fields, List.cons.injEq, Prod.mk.injEq, true_and, and_true] at h
      rw [text_injective h.1, flag_injective h.2]
    | _ => simp [kind] at hkind
  | job report =>
    cases b with
    | job => exact congrArg Notification.job (report_eq h)
    | _ => simp [kind] at hkind
  | paused state =>
    cases b with
    | paused =>
      simp only [fields, List.cons.injEq, Prod.mk.injEq, true_and, and_true] at h
      rw [flag_injective h]
    | _ => simp [kind] at hkind
  | loop count =>
    cases b with
    | loop =>
      simp only [fields, List.cons.injEq, Prod.mk.injEq, true_and, and_true] at h
      rw [whole_injective h]
    | _ => simp [kind] at hkind
  | cavity name start =>
    cases b with
    | cavity =>
      simp only [fields, List.cons.injEq, Prod.mk.injEq, true_and, and_true] at h
      rw [text_injective h.1, time_injective h.2]
    | _ => simp [kind] at hkind
  | progress value label =>
    cases b with
    | progress =>
      simp only [fields, List.cons.injEq, Prod.mk.injEq, true_and, and_true] at h
      rw [whole_injective h.1, text_injective h.2]
    | _ => simp [kind] at hkind

/-- What a document means is what decoding gives. -/
theorem Means.ofDocument_eq {result : Except NotificationError Notification}
    (h : Means document result) : ofDocument document = result := by
  cases h with
  | untyped h => exact ofDocument_of_untyped h
  | wrongType h hnull hvalue => exact ofDocument_of_wrongType h hnull hvalue
  | unknown h hkind => rw [ofDocument_of_kind h, ofKind_of_unknown hkind]
  | idle h hjob => exact ofDocument_of_idle h hjob
  | refused h hkind hjob hfirst =>
    have hsettles := settles_ofKind hkind hjob
    rw [ofDocument_of_kind h]
    cases hread : ofKind document _ with
    | error error =>
      rw [hread] at hsettles
      exact congrArg Except.error (Option.some.inj (hsettles.symm.trans hfirst))
    | ok notification =>
      rw [hread] at hsettles
      -- what was read shows every member, so none was refused
      obtain ⟨-, shown, hshown, -⟩ := hsettles
      rw [findSome?_of_shown hshown] at hfirst
      cases hfirst
  | read h hkind hjob hsame hfields =>
    have hsettles := settles_ofKind hkind hjob
    rw [ofDocument_of_kind h]
    cases hread : ofKind document _ with
    | error error =>
      rw [hread] at hsettles
      have hnone := findSome?_of_shown hfields
      rw [show _ = some error from hsettles] at hnone
      cases hnone
    | ok notification =>
      rw [hread] at hsettles
      obtain ⟨hsame', shown, hshown, hfields'⟩ := hsettles
      refine congrArg Except.ok (eq_of_fields (hsame'.trans hsame.symm) ?_)
      exact (show notification.fields = shown from hfields').trans (shown_unique hshown hfields)

/-! ## What has a part in decoding -/

/-- The members that have a part in decoding a document: the kind, and of its members those that are
looked at. -/
def consulted (document : Document) : List String :=
  "notification" ::
    match Members.get? document "notification" with
    | some (.string kind) =>
      if kind = "job" ∧ Lacks document "job" then ["job"]
      else ((membersOf kind).getD []).map (·.name)
    | _ => []

theorem consulted_of_idle (h : Members.get? document "notification" = some (.string "job"))
    (hjob : Lacks document "job") : consulted document = ["notification", "job"] := by
  unfold consulted
  rw [h]
  dsimp only
  rw [if_pos ⟨rfl, hjob⟩]

theorem consulted_of_kind {kind : String} {members : List Member}
    (h : Members.get? document "notification" = some (.string kind))
    (hkind : membersOf kind = some members) (hjob : kind = "job" → ¬ Lacks document "job") :
    consulted document = "notification" :: members.map (·.name) := by
  unfold consulted
  rw [h]
  dsimp only
  rw [if_neg fun hidle => hjob hidle.1 hidle.2, hkind]
  rfl

/-- Two documents say the same under a name: it is unset in both, or it has the same value. -/
def SameAt (document other : Document) (name : String) : Prop :=
  (Lacks document name ∧ Lacks other name) ∨ Members.get? other name = Members.get? document name

section

variable {other : Document}

theorem SameAt.lacks {name : String} (h : SameAt document other name)
    (hlacks : Lacks document name) : Lacks other name := by
  rcases h with h | h
  · exact h.2
  · rwa [Lacks, h]

theorem SameAt.get? {name : String} {value : Json} (h : SameAt document other name)
    (hvalue : Members.get? document name = some value) (hnull : value ≠ .null) :
    Members.get? other name = some value := by
  rcases h with h | h
  · exact absurd h.1 (not_lacks_of_get? hvalue hnull)
  · exact h.trans hvalue

theorem SameAt.not_lacks {name : String} (h : SameAt document other name)
    (hset : ¬ Lacks document name) : ¬ Lacks other name := by
  obtain ⟨value, hvalue, hnull⟩ := (lacks_or document name).resolve_left hset
  exact not_lacks_of_get? (h.get? hvalue hnull) hnull

theorem SameAt.faultIn {member : Member} (h : SameAt document other member.name) :
    faultIn other member = faultIn document member := by
  rcases lacks_or document member.name with hlacks | ⟨value, hvalue, hnull⟩
  · rw [faultIn_of_lacks hlacks, faultIn_of_lacks (h.lacks hlacks)]
  · rw [faultIn_of_get? member hvalue hnull, faultIn_of_get? member (h.get? hvalue hnull) hnull]

theorem ShownAs.agree {member : Member} {entry : String × Option Held}
    (hshown : ShownAs document member entry) (h : SameAt document other member.name) :
    ShownAs other member entry := by
  cases hshown with
  | unset hlacks => exact .unset (h.lacks hlacks)
  | held hvalue hheld => exact .held (h.get? hvalue hheld.ne_null) hheld

theorem findSome?_agree {members : List Member}
    (h : ∀ member ∈ members, SameAt document other member.name) :
    members.findSome? (faultIn other) = members.findSome? (faultIn document) := by
  induction members with
  | nil => rfl
  | cons member members ih =>
    obtain ⟨hfirst, hrest⟩ := List.forall_mem_cons.mp h
    rw [List.findSome?_cons, List.findSome?_cons, hfirst.faultIn, ih hrest]

theorem shown_agree {members : List Member} {shown : List (String × Option Held)}
    (h : ∀ member ∈ members, SameAt document other member.name)
    (hshown : List.Forall₂ (ShownAs document) members shown) :
    List.Forall₂ (ShownAs other) members shown :=
  ((List.forall₂_and_left members shown).mpr ⟨h, hshown⟩).imp fun _ _ hread => hread.2.agree hread.1

theorem jobSet_agree {kind : String} {members : List Member}
    (hkind : membersOf kind = some members) (hjob : kind = "job" → ¬ Lacks document "job")
    (h : ∀ member ∈ members, SameAt document other member.name) :
    kind = "job" → ¬ Lacks other "job" := by
  rintro rfl
  cases hkind
  exact SameAt.not_lacks (h ⟨"job", .job⟩ List.mem_cons_self) (hjob rfl)

/-- Documents that agree on the members that have a part mean the same. -/
theorem Means.agree {result : Except NotificationError Notification} (h : Means document result)
    (hsame : ∀ name ∈ consulted document, SameAt document other name) : Means other result := by
  have hkindSame := hsame "notification" List.mem_cons_self
  cases h with
  | untyped h => exact .untyped (hkindSame.lacks h)
  | wrongType h hnull hvalue => exact .wrongType (hkindSame.get? h hnull) hnull hvalue
  | unknown h hkind => exact .unknown (hkindSame.get? h nofun) hkind
  | idle h hjob =>
    rw [consulted_of_idle h hjob] at hsame
    have hjobSame := hsame "job" (List.mem_cons_of_mem _ List.mem_cons_self)
    exact .idle (hkindSame.get? h nofun) (hjobSame.lacks hjob)
  | refused h hkind hjob hfirst =>
    rw [consulted_of_kind h hkind hjob, List.forall_mem_cons, List.forall_mem_map] at hsame
    exact .refused (hkindSame.get? h nofun) hkind (jobSet_agree hkind hjob hsame.2)
      ((findSome?_agree hsame.2).trans hfirst)
  | read h hkind hjob hread hshown =>
    rw [consulted_of_kind h hkind hjob, List.forall_mem_cons, List.forall_mem_map] at hsame
    exact .read (hkindSame.get? h nofun) hkind (jobSet_agree hkind hjob hsame.2) hread
      (shown_agree hsame.2 hshown)

end

/-- **The exact meaning of decoding.** A document decodes to what it means and to nothing else; what
it decodes to depends on the members that have a part alone; and of a notification without a job
every field is missing. -/
theorem ofDocument_iff_means (document : Document) :
    (∀ result, ofDocument document = result ↔ Means document result) ∧
      (∀ other : Document, (∀ name ∈ consulted document, SameAt document other name) →
        ofDocument other = ofDocument document) ∧
      ∀ entry ∈ idle.fields, entry.2 = none := by
  refine ⟨fun result => ⟨?_, Means.ofDocument_eq⟩, fun other hsame => ?_, ?_⟩
  · rintro rfl
    exact means_ofDocument document
  · exact ((means_ofDocument document).agree hsame).ofDocument_eq
  · simp [idle, fields, JobReport.said]

/-- A notification without a job, beside members that no job may have. -/
def besideNoJob : Document :=
  [("job", .null), ("label", .boolean true), ("loop", .string "3"), ("notification", .string "job")]

/-- A running job with a number that takes more than 32 bits, a label that is `null`, and a member
of another kind. -/
def numberedJob : Document :=
  [("count", .string "3"),
   ("job", .object
    [("cavities", .array [.string "a", .string "b", .string "a"]), ("continuous", .boolean false),
     ("correct", .boolean true), ("kick-samples", .number (.integer 3)),
     ("max-momentum-error", .number (.integer 1)), ("max-phase-error", .number (.integer 1))]),
   ("job-id", .number (.integer 2147483648)), ("label", .null), ("notification", .string "job"),
   ("paused", .boolean true)]

/-- Progress whose number takes more than 32 bits, beside a label that is no string. -/
def overlongProgress : Document :=
  [("label", .boolean true), ("notification", .string "progress"),
   ("value", .number (.integer 2147483648))]

/-- What a running job, a fault before another, and no job come to. -/
theorem ofDocument_iff_means_kinds :
    ofDocument numberedJob =
        .ok (.job (some
          { job :=
              { correct := true, continuous := false, maxPhaseError := Binary.ofInt 1,
                maxMomentumError := Binary.ofInt 1, kickSamples := 3,
                cavities := .ofList ["a", "b"] },
            id := some 2147483648, paused := some true })) ∧
      ofDocument overlongProgress = .error (.invalidInteger "value" (.integer 2147483648)) ∧
      ofDocument besideNoJob = .ok idle ∧
      ofDocument [("notification", .string "job")] = ofDocument besideNoJob := by
  obtain ⟨hidle, hsame, -⟩ := ofDocument_iff_means besideNoJob
  refine ⟨((ofDocument_iff_means numberedJob).1 _).mpr ?_,
    ((ofDocument_iff_means overlongProgress).1 _).mpr ?_,
    (hidle _).mpr (.idle rfl (.inr rfl)), hsame _ ?_⟩
  · refine .read rfl rfl (fun _ => not_lacks_of_get? rfl nofun) rfl ?_
    refine .cons (.held rfl (.job (by with_unfolding_all rfl))) ?_
    refine .cons (.held rfl (.whole (by decide) (by decide))) ?_
    refine .cons (.unset (.inl rfl)) ?_
    refine .cons (.held rfl (.flag true)) ?_
    refine .cons (.unset (.inl rfl)) ?_
    refine .cons (.unset (.inl rfl)) ?_
    refine .cons (.unset (.inl rfl)) ?_
    refine .cons (.unset (.inl rfl)) ?_
    exact .cons (.unset (.inr rfl)) .nil
  · exact .refused rfl rfl nofun rfl
  · rw [consulted_of_idle rfl (.inr rfl)]
    simp only [List.forall_mem_cons, List.not_mem_nil, false_implies, implies_true, and_true]
    exact ⟨.inr rfl, .inl ⟨.inr rfl, .inl rfl⟩⟩

end CavityConsole.Notification

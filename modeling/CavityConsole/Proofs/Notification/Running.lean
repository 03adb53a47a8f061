import CavityConsole.Proofs.Job.Acceptance
import CavityConsole.Proofs.Notification.Meaning

/-!
# Which documents report a running job

A document about the current job reports one when its `job` member gives a job and the members
beside it are unset or well-formed (`Acceptable`). Nothing is reported of a job that is not set, and
a value that gives no job is refused, whatever its type.

**The law** (`running_iff_gives`): so the running jobs are those that values give: the complete
objects and, beside them, the lists of the six values (`running_from_list`).
-/

namespace CavityConsole.Notification

open Json

variable {document : Document}

/-- A member is unset, or it holds something of its type. -/
def Acceptable (document : Document) (member : Member) : Prop :=
  Lacks document member.name ∨
    ∃ value held, Members.get? document member.name = some value ∧ Holds member.type value held

theorem Acceptable.faultIn {member : Member} (h : Acceptable document member) :
    faultIn document member = none := by
  rcases h with hunset | ⟨value, held, hset, hheld⟩
  · exact faultIn_of_lacks hunset
  · exact (ShownAs.held hset hheld).faultIn

/-- The members beside a job. -/
def besideJob : List Member := ((membersOf "job").getD []).tail

theorem membersOf_job : membersOf "job" = some (⟨"job", .job⟩ :: besideJob) := rfl

/-- A report that shows a job shows what the value is read as. -/
theorem report_of_shown {report : Option JobReport} {value : Json} {job : Job}
    (hjob : Members.get? document "job" = some value) (hread : Job.ofJson value = .ok job)
    (h : List.Forall₂ (ShownAs document) (⟨"job", .job⟩ :: besideJob) (fields (.job report))) :
    ∃ shown, report = some shown ∧ shown.job = job := by
  have hshown := (List.forall₂_cons.mp h).1
  have hsame := hshown.unique (.held hjob (.job hread))
  cases report with
  | none => cases hsame
  | some shown =>
    refine ⟨shown, rfl, ?_⟩
    cases hsame
    rfl

theorem ofDocument_of_invalidJob {value : Json} {mismatch : Mismatch}
    (hkind : Members.get? document "notification" = some (.string "job"))
    (hjob : Members.get? document "job" = some value) (hnull : value ≠ .null)
    (hread : Job.ofJson value = .error mismatch) :
    ofDocument document = .error (.invalidJob mismatch) := by
  have hset := not_lacks_of_get? hjob hnull
  refine (Means.refused hkind membersOf_job (fun _ => hset) ?_).ofDocument_eq
  have hfault : faultIn document ⟨"job", .job⟩ = some (.invalidJob mismatch) := by
    rw [faultIn_of_get? ⟨"job", .job⟩ hjob hnull]
    simp only [MemberType.fault, hread]
  rw [List.findSome?_cons, hfault]

theorem ofDocument_of_job {value : Json} {job : Job}
    (hkind : Members.get? document "notification" = some (.string "job"))
    (hjob : Members.get? document "job" = some value) (hread : Job.ofJson value = .ok job)
    (hbeside : ∀ member ∈ besideJob, Acceptable document member) :
    ∃ report, ofDocument document = .ok (.job (some report)) ∧ report.job = job := by
  have hset := not_lacks_of_get? hjob (Holds.job hread).ne_null
  have hfine : (⟨"job", .job⟩ :: besideJob).findSome? (faultIn document) = none := by
    rw [List.findSome?_eq_none_iff, List.forall_mem_cons]
    exact ⟨Acceptable.faultIn (.inr ⟨value, _, hjob, .job hread⟩),
      fun member hmember => (hbeside member hmember).faultIn⟩
  -- nothing is refused, so the members are shown
  have hsettles := settles_ofKind membersOf_job fun _ => hset
  rw [← ofDocument_of_kind hkind] at hsettles
  cases hresult : ofDocument document with
  | error error =>
    rw [hresult] at hsettles
    cases hfine.symm.trans hsettles
  | ok notification =>
    rw [hresult] at hsettles
    obtain ⟨hsameKind, shown, hshown, hfields⟩ := hsettles
    obtain rfl : notification.fields = shown := hfields
    cases notification with
    | job report =>
      obtain ⟨report, rfl, hsame⟩ := report_of_shown hjob hread hshown
      exact ⟨report, rfl, hsame⟩
    | status | paused | loop | cavity | progress => simp [kind] at hsameKind

/-- **A running job comes from a value that gives it.** For every document about the current job
with acceptable members beside it: it reports a running job exactly when its job member gives that
job; any other value but `null` is refused as an invalid job; and without a value no job is
running. -/
theorem running_iff_gives (document : Document)
    (hkind : Members.get? document "notification" = some (.string "job"))
    (hbeside : ∀ member ∈ besideJob, Acceptable document member) :
    (∀ job, (∃ report, ofDocument document = .ok (.job (some report)) ∧ report.job = job) ↔
        ∃ value, Members.get? document "job" = some value ∧ Job.Gives value job) ∧
      (∀ value, Members.get? document "job" = some value → value ≠ .null →
        (∀ job, ¬ Job.Gives value job) →
          ∃ mismatch, ofDocument document = .error (.invalidJob mismatch)) ∧
      (Lacks document "job" → ofDocument document = .ok idle) := by
  refine ⟨fun job => ⟨?_, ?_⟩, fun value hvalue hnull hnone => ?_, ofDocument_of_idle hkind⟩
  · rintro ⟨report, hreport, rfl⟩
    rcases lacks_or document "job" with hlacks | ⟨value, hvalue, hnull⟩
    · rw [ofDocument_of_idle hkind hlacks] at hreport
      cases hreport
    · refine ⟨value, hvalue, Job.ofJson_eq_ok_iff.mp ?_⟩
      cases hread : Job.ofJson value with
      | error mismatch =>
        rw [ofDocument_of_invalidJob hkind hvalue hnull hread] at hreport
        cases hreport
      | ok job =>
        obtain ⟨shown, hshown, rfl⟩ := ofDocument_of_job hkind hvalue hread hbeside
        rw [hreport] at hshown
        cases hshown
        rfl
  · rintro ⟨value, hvalue, hgives⟩
    exact ofDocument_of_job hkind hvalue hgives.ofJson hbeside
  · cases hread : Job.ofJson value with
    | error mismatch => exact ⟨mismatch, ofDocument_of_invalidJob hkind hvalue hnull hread⟩
    | ok job => exact absurd (Job.ofJson_eq_ok_iff.mp hread) (hnone job)

/-- The job of the documents below. -/
def sampleJob : Job where
  correct := true
  continuous := false
  maxPhaseError := Binary.ofInt 1
  maxMomentumError := Binary.ofInt 1
  kickSamples := 3
  cavities := .ofList ["a", "b"]

theorem sixValues_sampleJob :
    Job.SixValues (.boolean true) (.boolean false) (.number (.integer 1)) (.number (.integer 1))
      (.number (.integer 3)) (.array [.string "a", .string "b", .string "a"]) sampleJob where
  correct := rfl
  continuous := rfl
  phase := ⟨_, rfl, Job.isRounded_toSingle (.integer 1)⟩
  momentum := ⟨_, rfl, Job.isRounded_toSingle (.integer 1)⟩
  samples := rfl
  cavities := ⟨["a", "b", "a"], rfl, firstOccurrences_ofList ["a", "b", "a"]⟩

/-- A document with a paused job; its object has one member more than a job. -/
def pausedJob : Document :=
  [("job", .object
    [("cavities", .array [.string "a", .string "b", .string "a"]), ("continuous", .boolean false),
     ("correct", .boolean true), ("kick-samples", .number (.integer 3)),
     ("max-momentum-error", .number (.integer 1)), ("max-phase-error", .number (.integer 1)),
     ("owner", .null)]),
   ("notification", .string "job"), ("paused", .boolean true)]

theorem acceptable_pausedJob : ∀ member ∈ besideJob, Acceptable pausedJob member := by
  have hpaused : Acceptable pausedJob ⟨"paused", .flag⟩ := .inr ⟨_, _, rfl, .flag true⟩
  simp only [besideJob, membersOf, Option.getD_some, List.tail_cons, List.forall_mem_cons]
  exact ⟨.inl (.inl rfl), .inl (.inl rfl), hpaused, .inl (.inl rfl), .inl (.inl rfl),
    .inl (.inl rfl), .inl (.inl rfl), .inl (.inl rfl), List.forall_mem_nil _⟩

/-- A document whose job is a number. -/
def numberJob : Document := [("job", .number (.integer 3)), ("notification", .string "job")]

theorem running_iff_gives_pausedJob :
    (∃ report, ofDocument pausedJob = .ok (.job (some report)) ∧ report.job = sampleJob) ∧
      ∃ mismatch, ofDocument numberJob = .error (.invalidJob mismatch) := by
  have hobject := running_iff_gives pausedJob rfl acceptable_pausedJob
  have hnumber := running_iff_gives numberJob rfl (by
    simp only [besideJob, membersOf, Option.getD_some, List.tail_cons, List.forall_mem_cons]
    exact ⟨.inl (.inl rfl), .inl (.inl rfl), .inl (.inl rfl), .inl (.inl rfl), .inl (.inl rfl),
      .inl (.inl rfl), .inl (.inl rfl), .inl (.inl rfl), List.forall_mem_nil _⟩)
  refine ⟨(hobject.1 sampleJob).mpr ⟨_, rfl, ?_⟩, hnumber.2.1 _ rfl nofun nofun⟩
  exact .object rfl rfl rfl rfl rfl rfl sixValues_sampleJob

/-- A document whose job is a list of six values. -/
def listJob : Document :=
  [("job", .array
    [.boolean true, .boolean false, .number (.integer 1), .number (.integer 1),
     .number (.integer 3), .array [.string "a", .string "b", .string "a"]]),
   ("notification", .string "job")]

/-- A running job is reported although the job is no object. -/
theorem running_from_list :
    (∀ members, Members.get? listJob "job" ≠ some (.object members)) ∧
      ofDocument listJob = .ok (.job (some { job := sampleJob })) := by
  refine ⟨nofun, ?_⟩
  have hread : Job.ofJson _ = .ok sampleJob := (Job.Gives.list sixValues_sampleJob).ofJson
  have hjob : jobOfDocument listJob = .ok (some { job := sampleJob }) := by
    have hset : field? listJob "job" = some _ := rfl
    rw [jobOfDocument, hset]
    dsimp only
    rw [hread]
    rfl
  rw [ofDocument_of_kind rfl]
  show (jobOfDocument listJob).map Notification.job = _
  rw [hjob]
  rfl

end CavityConsole.Notification

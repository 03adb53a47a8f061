import CavityConsole.Proofs.Job.Acceptance
import CavityConsole.Proofs.Job.Value

/-!
# Which jobs survive as values

As a value of a document a job has a number for a finite limit and nothing for any other one, and
nothing is not read as a limit. So a job comes back from its value exactly when both its limits are
finite, and then bit for bit; otherwise the value is refused.

A value that is read as a job (`Holds`) may have numbers that no finite limit stands for
(`TooLarge`): those from halfway between the largest limit and the next power of two on. They are
read as infinite limits, and such a job is lost when it is written as a value again.

**The law** (`survives_as_value`): both directions, over all jobs and over all values that are read
as jobs. The cavities that are written again are the first occurrences of those that were read.
-/

namespace CavityConsole.Job

open Binary Json

/-! ## From a job to its value and back -/

/-- The value of any job. -/
theorem toJson_members (job : Job) :
    job.toJson = .object
      [("cavities", .array (job.cavities.names.map .string)),
       ("continuous", .boolean job.continuous),
       ("correct", .boolean job.correct),
       ("kick-samples", .number (.integer job.kickSamples.toInt)),
       ("max-momentum-error", limitToJson job.maxMomentumError),
       ("max-phase-error", limitToJson job.maxPhaseError)] := by
  rw [toJson, ofList_members]

/-- What a limit is read back as. -/
theorem readSingle_limitToJson (x : Single) :
    readSingle (limitToJson x) =
      if x.isFinite then .ok x else .error (.wrongType .null "f32") := by
  by_cases h : x.isFinite = true
  · rw [limitToJson, if_pos h, if_pos h]
    exact congrArg Except.ok (convert_convert h)
  · rw [limitToJson, if_neg h, if_neg h]
    rfl

theorem optionalMember_of_error {α : Type} {read : Json → Except Mismatch α} {members : Members}
    {name : String} {value : Json} {mismatch : Mismatch}
    (hmember : members.get? name = some value) (hread : read value = .error mismatch) :
    optionalMember read members name = .error mismatch := by
  rw [optionalMember, hmember]
  show (read value).map some = _
  rw [hread]
  rfl

/-- **A job whose limits are not both finite is refused as a value**: a limit is missing there. -/
theorem ofJson_toJson_of_not_finite {job : Job} (h : job.hasFiniteLimits = false) :
    ofJson job.toJson = .error (.wrongType .null "f32") := by
  have hnames := readStrings_names job.cavities.names
  have hsamples := readInt32_toInt job.kickSamples
  have hphase := readSingle_limitToJson job.maxPhaseError
  have hmomentum := readSingle_limitToJson job.maxMomentumError
  rw [toJson_members, ofJson, ofMembers, optionalMember_eq rfl hnames,
    (optionalMember_eq rfl rfl :
      optionalMember readBoolean _ "continuous" = .ok (some job.continuous)),
    (optionalMember_eq rfl rfl : optionalMember readBoolean _ "correct" = .ok (some job.correct)),
    optionalMember_eq rfl hsamples]
  -- the momentum error is looked at first
  by_cases hfinite : job.maxMomentumError.isFinite = true
  · rw [if_pos hfinite] at hmomentum
    rw [hasFiniteLimits, hfinite, Bool.and_true] at h
    rw [if_neg (by simp [h])] at hphase
    rw [optionalMember_eq rfl hmomentum, optionalMember_of_error rfl hphase]
    rfl
  · rw [if_neg hfinite] at hmomentum
    rw [optionalMember_of_error rfl hmomentum]
    rfl

theorem ofJson_toJson_eq_ok_iff {job : Job} :
    ofJson job.toJson = .ok job ↔ job.hasFiniteLimits = true := by
  refine ⟨fun h => ?_, ofJson_toJson⟩
  by_contra hfinite
  rw [ofJson_toJson_of_not_finite (Bool.eq_false_of_not_eq_true hfinite)] at h
  cases h

theorem sameNumber_self {x : Single} (h : x.isFinite = true) : x.sameNumber x = true := by
  simp [sameNumber, isNaN_eq_false_of_isFinite h]

/-- The comparison of jobs by their numbers finds the same. -/
theorem survivesJson_eq (job : Job) : job.survivesJson = job.hasFiniteLimits := by
  rw [survivesJson]
  cases hfinite : job.hasFiniteLimits with
  | false => rw [ofJson_toJson_of_not_finite hfinite]
  | true =>
    obtain ⟨hphase, hmomentum⟩ := Bool.and_eq_true_iff.mp hfinite
    rw [ofJson_toJson hfinite]
    simp [sameParameters, sameNumber_self hphase, sameNumber_self hmomentum]

/-! ## Numbers that are too large -/

/-- Halfway between the largest limit and the next power of two. -/
def limitBound : ℚ := (2 ^ 25 - 1) * 2 ^ 103

theorem halfway_largest_limit :
    Format.single.halfway (Format.single.infinity - 1) = limitBound := by
  have hlargest : Format.single.units (Format.single.infinity - 1) = (2 ^ 24 - 1) * 2 ^ 253 := by
    decide +kernel
  have hnext : Format.single.units (Format.single.infinity - 1 + 1) = 2 ^ 24 * 2 ^ 253 := by
    decide +kernel
  rw [Format.halfway_eq, hlargest, hnext, limitBound, show Format.single.scale = 149 from rfl]
  norm_num

/-- A number that no finite limit stands for. A number of a line is finite itself. -/
def TooLarge : Number → Prop
  | .integer i => limitBound ≤ |(i : ℚ)|
  | .real y => y.isFinite = true → limitBound ≤ y.amount

/-- What a number is rounded to is finite below the bound. -/
theorem isFinite_iff_of_rounds {v : ℚ} {x : Single} (h : Format.single.Rounds v x.code) :
    x.isFinite = true ↔ v < limitBound := by
  rw [← halfway_largest_limit, isFinite, decide_eq_true_eq]
  generalize x.code = code at h
  cases h with
  | finite hfinite hbelow => exact ⟨fun _ => hbelow, fun _ => hfinite⟩
  | infinite hbeyond =>
    exact ⟨fun h => absurd h (lt_irrefl _), fun h => absurd hbeyond (not_le.mpr h)⟩

/-- **A number is read as a finite limit unless it is too large.** -/
theorem isFinite_iff_not_tooLarge {n : Number} {x : Single} (h : IsRounded n x) :
    x.isFinite = true ↔ ¬ TooLarge n := by
  cases h with
  | integer hrounds => exact (isFinite_iff_of_rounds hrounds).trans not_le.symm
  | @real y x hfinite hrounds =>
    rw [isFinite_iff_of_rounds hrounds]
    exact ⟨fun h htoo => absurd (htoo hfinite) (not_le.mpr h),
      fun h => not_le.mp fun hle => h fun _ => hle⟩
  | @infinite y hfinite =>
    have hnone : (infinite y.negative : Single).isFinite = false :=
      decide_eq_false (Nat.lt_irrefl _)
    simp [TooLarge, hfinite, hnone]
  | @notANumber y hnumber =>
    have hbehind : ¬ Format.single.notANumber < Format.single.infinity := by decide
    have hnone : (Binary.notANumber y.negative : Single).isFinite = false := decide_eq_false hbehind
    simp [TooLarge, isFinite_eq_false_of_isNaN hnumber, hnone]

/-! ## From a value to its job and back -/

/-- A value with these numbers for its limits and these names for its cavities. -/
inductive Holds (phase momentum : Number) (names : List String) : Json → Prop where
  | object {members : Members}
    (phaseMember : members.get? "max-phase-error" = some (.number phase))
    (momentumMember : members.get? "max-momentum-error" = some (.number momentum))
    (cavitiesMember : members.get? "cavities" = some (.array (names.map .string))) :
    Holds phase momentum names (.object members)
  | list {correct continuous samples : Json} :
    Holds phase momentum names
      (.array [correct, continuous, .number phase, .number momentum, samples,
        .array (names.map .string)])

/-- A value that gives a job holds two numbers that are rounded to its limits, and its cavities. -/
theorem Gives.holds {value : Json} {job : Job} (h : Gives value job) :
    ∃ phase momentum names, Holds phase momentum names value ∧
      IsRounded phase job.maxPhaseError ∧ IsRounded momentum job.maxMomentumError ∧
      FirstOccurrences names job.cavities.names := by
  cases h with
  | object _ _ hphaseMember hmomentumMember _ hcavitiesMember six =>
    obtain ⟨phase, rfl, hphase⟩ := six.phase
    obtain ⟨momentum, rfl, hmomentum⟩ := six.momentum
    obtain ⟨names, rfl, hnames⟩ := six.cavities
    exact ⟨phase, momentum, names, .object hphaseMember hmomentumMember hcavitiesMember, hphase,
      hmomentum, hnames⟩
  | list six =>
    obtain ⟨phase, rfl, hphase⟩ := six.phase
    obtain ⟨momentum, rfl, hmomentum⟩ := six.momentum
    obtain ⟨names, rfl, hnames⟩ := six.cavities
    exact ⟨phase, momentum, names, .list, hphase, hmomentum, hnames⟩

/-- **Jobs survive as values exactly when their limits are finite.** The value of a job gives back
the job itself, bit for bit, when both its limits are finite, and is refused otherwise. A value that
is read as a job and written as a value again gives the same job exactly when neither of its numbers
was too large, which is when neither limit is infinite; and what is written again are the first
occurrences of its cavities. -/
theorem survives_as_value :
    (∀ job : Job,
      (job.hasFiniteLimits = true → ofJson job.toJson = .ok job) ∧
        (job.hasFiniteLimits = false → ∃ mismatch, ofJson job.toJson = .error mismatch) ∧
        job.survivesJson = job.hasFiniteLimits) ∧
      ∀ (value : Json) (job : Job), ofJson value = .ok job →
        ∃ phase momentum names, Holds phase momentum names value ∧
          (ofJson job.toJson = .ok job ↔ ¬ TooLarge phase ∧ ¬ TooLarge momentum) ∧
          (job.maxPhaseError.isFinite = false ↔ TooLarge phase) ∧
          (job.maxMomentumError.isFinite = false ↔ TooLarge momentum) ∧
          ∃ members kept, job.toJson = .object members ∧
            Members.get? members "cavities" = some (.array (kept.map .string)) ∧
            FirstOccurrences names kept := by
  refine ⟨fun job => ⟨ofJson_toJson, fun h => ⟨_, ofJson_toJson_of_not_finite h⟩,
    survivesJson_eq job⟩, fun value job h => ?_⟩
  obtain ⟨phase, momentum, names, hholds, hphase, hmomentum, hnames⟩ :=
    (ofJson_eq_ok_iff.mp h).holds
  have hphaseFinite := isFinite_iff_not_tooLarge hphase
  have hmomentumFinite := isFinite_iff_not_tooLarge hmomentum
  refine ⟨phase, momentum, names, hholds, ?_, ?_, ?_, _, job.cavities.names, toJson_members job,
    rfl, hnames⟩
  · rw [ofJson_toJson_eq_ok_iff, hasFiniteLimits, Bool.and_eq_true, hphaseFinite, hmomentumFinite]
  · rw [← Bool.not_eq_true, hphaseFinite, not_not]
  · rw [← Bool.not_eq_true, hmomentumFinite, not_not]

/-- A job with a zero below zero and the least limit above it. -/
def faintJob : Job where
  correct := false
  continuous := true
  maxPhaseError := Binary.zero true
  maxMomentumError := Binary.ofDecimal false 1 (-45)
  kickSamples := -1
  cavities := .ofList ["b", "a"]

/-- A value with a number that is too large, and with a cavity that comes twice. -/
def overlargeValue : Json :=
  .array [.boolean true, .boolean false, .number (.real (Binary.ofDecimal true 1 39)),
    .number (.integer 1), .number (.integer 3), .array [.string "a", .string "b", .string "a"]]

/-- The job that it is read as. -/
def overlargeJob : Job where
  correct := true
  continuous := false
  maxPhaseError := Binary.infinite true
  maxMomentumError := Binary.ofInt 1
  kickSamples := 3
  cavities := .ofList ["a", "b"]

theorem survives_as_value_faint_and_overlarge :
    ofJson faintJob.toJson = .ok faintJob ∧
      ofJson overlargeValue = .ok overlargeJob ∧
      (∃ mismatch, ofJson overlargeJob.toJson = .error mismatch) ∧
      ∃ phase momentum names, Holds phase momentum names overlargeValue ∧ TooLarge phase := by
  obtain ⟨hjobs, hvalues⟩ := survives_as_value
  have hread : ofJson overlargeValue = .ok overlargeJob := by decide +kernel
  obtain ⟨phase, momentum, names, hholds, -, hphase, -⟩ := hvalues overlargeValue overlargeJob hread
  exact ⟨(hjobs faintJob).1 (by decide +kernel), hread,
    (hjobs overlargeJob).2.1 (by decide +kernel), phase, momentum, names, hholds,
    hphase.mp (by decide +kernel)⟩

end CavityConsole.Job

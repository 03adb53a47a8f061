import CavityConsole.Job.Input
import CavityConsole.Proofs.Decimal.Typed
import CavityConsole.Proofs.Job.Acceptance
import CavityConsole.Proofs.Job.Value
import CavityConsole.Proofs.Text.Typing

/-!
# What an operator types is validated exactly

`Fault` says what is wrong with the input of an operator, each fault on its own and in no order, and
`InputError.place` gives the order of the checks. A text matters only without the white space around
it: it is blank, it is typed for a number, or it is neither.

**The law** (`ofInput_exact`): the input is refused with the fault of the earliest check, and when
there is no fault it is the job that was typed (`Typed`). Such a job has finite limits, a momentum
error within the range, and at least one cavity; as a value of a document it has numbers for its
limits, and that value gives the job back.

The checks come one after the other, so `ClearTo` says how far an input is without a fault, and each
check takes it one place further (`ClearTo.next`).
-/

namespace CavityConsole.Job

open Binary

/-! ## What is typed -/

/-- A text of white space only. -/
def IsBlank (text : String) : Prop := ∀ c ∈ text.toList, Text.isBlank c = true

/-- A text is typed for a finite number: its decimal is rounded to the value. -/
def TypedLimit (text : String) (x : Single) : Prop :=
  ∃ t, Decimal.TypedAs (Text.trim text.toList) x t

/-- A text is typed for a whole number of 32 bits. -/
def TypedSamples (text : String) (i : Int32) : Prop :=
  Text.WholeNumber (Text.trim text.toList) i.toInt

/-- A momentum error that the server accepts: from the 32-bit value of `0.0000001` up to one, both
ends included. -/
def Accepted (x : Single) : Prop :=
  ∃ least : Single, least.negative = false ∧ Format.single.Rounds (1 / 10 ^ 7) least.code ∧
    least.number ≤ x.number ∧ x.number ≤ 1

theorem requireText_of_blank {text : String} (h : IsBlank text) (field : Field) :
    requireText field text = .error (.empty field) := by
  rw [requireText, (Text.trim_eq_nil_iff _).mpr h]
  rfl

theorem requireText_of_not_blank {text : String} (h : ¬ IsBlank text) (field : Field) :
    requireText field text = .ok (Text.trim text.toList) := by
  rw [requireText]
  exact if_neg fun hempty => h ((Text.trim_eq_nil_iff _).mp (List.isEmpty_iff.mp hempty))

theorem TypedLimit.not_blank {text : String} {x : Single} (h : TypedLimit text x) :
    ¬ IsBlank text := by
  intro hblank
  have hread := (Decimal.read_finite_iff.mpr h).1
  rw [(Text.trim_eq_nil_iff _).mpr hblank] at hread
  cases hread

theorem TypedSamples.not_blank {text : String} {i : Int32} (h : TypedSamples text i) :
    ¬ IsBlank text := by
  intro hblank
  rw [TypedSamples, (Text.trim_eq_nil_iff _).mpr hblank] at h
  generalize i.toInt = k at h
  cases h with
  | plain hne => exact hne rfl

/-! ## One text -/

theorem readLimit_of_typed {text : String} {x : Single} (h : TypedLimit text x) (field : Field) :
    readLimit field text = .ok x := by
  obtain ⟨hread, hfinite⟩ := Decimal.read_finite_iff.mpr h
  rw [readLimit, requireText_of_not_blank h.not_blank]
  simp only [bind, Except.bind, hread, hfinite, if_true]

/-- **What reading a limit comes to.** -/
theorem readLimit_cases (field : Field) (text : String) :
    (∃ x, TypedLimit text x ∧ readLimit field text = .ok x) ∨
      (IsBlank text ∧ readLimit field text = .error (.empty field)) ∨
      (¬ IsBlank text ∧ (∀ x, ¬ TypedLimit text x) ∧
        readLimit field text = .error (.notANumber field)) := by
  by_cases hblank : IsBlank text
  · refine .inr (.inl ⟨hblank, ?_⟩)
    rw [readLimit, requireText_of_blank hblank]
    rfl
  by_cases htyped : ∃ x, TypedLimit text x
  · obtain ⟨x, hx⟩ := htyped
    exact .inl ⟨x, hx, readLimit_of_typed hx field⟩
  · rw [not_exists] at htyped
    refine .inr (.inr ⟨hblank, htyped, ?_⟩)
    rw [readLimit, requireText_of_not_blank hblank]
    simp only [bind, Except.bind]
    split
    next x hread =>
      exact if_neg fun hfinite => htyped x (Decimal.read_finite_iff.mp ⟨hread, hfinite⟩)
    next => rfl

/-- A text is typed for one value. -/
theorem TypedLimit.unique {text : String} {x y : Single} (hx : TypedLimit text x)
    (hy : TypedLimit text y) : x = y :=
  Except.ok.inj ((readLimit_of_typed hx .maxPhaseError).symm.trans
    (readLimit_of_typed hy .maxPhaseError))

theorem TypedLimit.isFinite {text : String} {x : Single} (h : TypedLimit text x) :
    x.isFinite = true :=
  (Decimal.read_finite_iff.mpr h).2

theorem readSamples_of_typed {text : String} {i : Int32} (h : TypedSamples text i) :
    readSamples text = .ok i := by
  have hread : Text.readInt 32 (Text.trim text.toList) = .ok i.toInt :=
    Text.readInt_eq_ok_iff.mpr ⟨h, i.minValue_le_toInt, i.toInt_le⟩
  rw [readSamples, requireText_of_not_blank h.not_blank]
  simp only [bind, Except.bind, hread, Int32.ofInt_toInt]

/-- **What reading the samples comes to.** -/
theorem readSamples_cases (text : String) :
    (∃ i, TypedSamples text i ∧ readSamples text = .ok i) ∨
      (IsBlank text ∧ readSamples text = .error (.empty .kickSamples)) ∨
      (¬ IsBlank text ∧ (∀ i, ¬ TypedSamples text i) ∧
        readSamples text = .error (.notAnInteger .kickSamples)) := by
  by_cases hblank : IsBlank text
  · refine .inr (.inl ⟨hblank, ?_⟩)
    rw [readSamples, requireText_of_blank hblank]
    rfl
  by_cases htyped : ∃ i, TypedSamples text i
  · obtain ⟨i, hi⟩ := htyped
    exact .inl ⟨i, hi, readSamples_of_typed hi⟩
  · rw [not_exists] at htyped
    refine .inr (.inr ⟨hblank, htyped, ?_⟩)
    rw [readSamples, requireText_of_not_blank hblank]
    simp only [bind, Except.bind]
    split
    next k hread =>
      obtain ⟨hwhole, hlow, hhigh⟩ := Text.readInt_eq_ok_iff.mp hread
      have hexact : (Int32.ofInt k).toInt = k :=
        Int32.toInt_ofInt_of_le hlow (Int.lt_of_le_sub_one hhigh)
      refine absurd ?_ (htyped (Int32.ofInt k))
      rw [TypedSamples, hexact]
      exact hwhole
    next => rfl

theorem TypedSamples.unique {text : String} {i j : Int32} (hi : TypedSamples text i)
    (hj : TypedSamples text j) : i = j :=
  Except.ok.inj ((readSamples_of_typed hi).symm.trans (readSamples_of_typed hj))

theorem isFinite_leastMomentumError : leastMomentumError.isFinite = true := by decide +kernel

theorem isFinite_greatestMomentumError : greatestMomentumError.isFinite = true := by decide +kernel

theorem rounds_leastMomentumError :
    Format.single.Rounds (1 / 10 ^ 7) leastMomentumError.code := by
  have hrounds : Format.single.Rounds ((1 : Nat) / (10000000 : Nat)) leastMomentumError.code :=
    rounds_ofRatio (by decide) false
  norm_num at hrounds ⊢
  exact hrounds

theorem number_greatestMomentumError : greatestMomentumError.number = 1 := by
  have hexact : greatestMomentumError.amount = (1 : Nat) / (1 : Nat) :=
    amount_ofRatio_of_representable Nat.one_pos isFinite_greatestMomentumError
      (by simpa using Format.single.representable_natCast Nat.one_le_two_pow)
  rw [Nat.cast_one, div_one] at hexact
  exact hexact

/-- The range is checked on the numbers. -/
theorem acceptsMomentumError_iff {x : Single} (h : x.isFinite = true) :
    acceptsMomentumError x = true ↔ Accepted x := by
  have hnumber := isNaN_eq_false_of_isFinite h
  rw [acceptsMomentumError, Bool.and_eq_true_iff,
    le_iff (isNaN_eq_false_of_isFinite isFinite_leastMomentumError) hnumber,
    le_iff hnumber (isNaN_eq_false_of_isFinite isFinite_greatestMomentumError),
    number_greatestMomentumError]
  constructor
  · exact fun hrange => ⟨leastMomentumError, rfl, rounds_leastMomentumError, hrange⟩
  · rintro ⟨least, hsign, hrounds, hrange⟩
    have hleast : least = leastMomentumError :=
      eq_of_parts (hrounds.unique rounds_leastMomentumError) hsign
    exact hleast ▸ hrange

/-! ## Faults -/

/-- The place of a check in the order of the checks. -/
def InputError.place : InputError → Nat
  | .empty .maxPhaseError => 0
  | .notANumber .maxPhaseError => 1
  | .empty .maxMomentumError => 2
  | .notANumber .maxMomentumError => 3
  | .momentumErrorOutOfRange _ => 4
  | .empty .kickSamples => 5
  | .notAnInteger .kickSamples => 6
  | .noCavities => 7
  | _ => 8

/-- What is wrong with an input. -/
inductive Fault (input : Input) : InputError → Prop where
  | phaseBlank (h : IsBlank input.maxPhaseError) : Fault input (.empty .maxPhaseError)
  | phaseNoNumber (h : ∀ x, ¬ TypedLimit input.maxPhaseError x) :
    Fault input (.notANumber .maxPhaseError)
  | momentumBlank (h : IsBlank input.maxMomentumError) : Fault input (.empty .maxMomentumError)
  | momentumNoNumber (h : ∀ x, ¬ TypedLimit input.maxMomentumError x) :
    Fault input (.notANumber .maxMomentumError)
  | momentumOutOfRange {x : Single} (h : TypedLimit input.maxMomentumError x)
    (outside : ¬ Accepted x) : Fault input (.momentumErrorOutOfRange x)
  | samplesBlank (h : IsBlank input.kickSamples) : Fault input (.empty .kickSamples)
  | samplesNoInteger (h : ∀ i, ¬ TypedSamples input.kickSamples i) :
    Fault input (.notAnInteger .kickSamples)
  | noCavities (h : input.cavities = []) : Fault input .noCavities

/-- A job is what an input was typed for. -/
structure Typed (input : Input) (job : Job) : Prop where
  correct : job.correct = input.correct
  continuous : job.continuous = input.continuous
  phase : TypedLimit input.maxPhaseError job.maxPhaseError
  momentum : TypedLimit input.maxMomentumError job.maxMomentumError
  samples : TypedSamples input.kickSamples job.kickSamples
  cavities : FirstOccurrences input.cavities job.cavities.names

/-- What is wrong at a place, if anything is. -/
def FaultAt (input : Input) : Nat → Prop
  | 0 => IsBlank input.maxPhaseError
  | 1 => ∀ x, ¬ TypedLimit input.maxPhaseError x
  | 2 => IsBlank input.maxMomentumError
  | 3 => ∀ x, ¬ TypedLimit input.maxMomentumError x
  | 4 => ∃ x, TypedLimit input.maxMomentumError x ∧ ¬ Accepted x
  | 5 => IsBlank input.kickSamples
  | 6 => ∀ i, ¬ TypedSamples input.kickSamples i
  | 7 => input.cavities = []
  | _ => False

variable {input : Input}

theorem Fault.at_place {e : InputError} (h : Fault input e) : FaultAt input e.place := by
  cases h with
  | phaseBlank h => exact h
  | phaseNoNumber h => exact h
  | momentumBlank h => exact h
  | momentumNoNumber h => exact h
  | momentumOutOfRange h houtside => exact ⟨_, h, houtside⟩
  | samplesBlank h => exact h
  | samplesNoInteger h => exact h
  | noCavities h => exact h

/-- There is one fault at a place. -/
theorem Fault.unique {a b : InputError} (ha : Fault input a) (hb : Fault input b)
    (h : a.place = b.place) : a = b := by
  cases ha with
  | momentumOutOfRange ha =>
    cases hb with
    | momentumOutOfRange hb => rw [ha.unique hb]
    | _ => simp [InputError.place] at h
  | _ =>
    cases hb <;> first | rfl | simp [InputError.place] at h

/-! ## The checks in order -/

/-- No fault comes before a place. -/
def ClearTo (input : Input) (place : Nat) : Prop := ∀ e, Fault input e → place ≤ e.place

theorem clearTo_zero : ClearTo input 0 := fun _ _ => Nat.zero_le _

/-- A check that is passed takes the input one place further. -/
theorem ClearTo.next {place : Nat} (h : ClearTo input place) (passed : ¬ FaultAt input place) :
    ClearTo input (place + 1) := fun e he =>
  Nat.lt_of_le_of_ne (h e he) fun heq => passed (heq ▸ he.at_place)

/-- Behind the last check there is no fault. -/
theorem ClearTo.sound (h : ClearTo input 8) (e : InputError) : ¬ Fault input e := by
  intro he
  have hplace := h e he
  cases he <;> simp [InputError.place] at hplace

/-- A fault that no other one comes before. -/
def Earliest (input : Input) (e : InputError) : Prop :=
  Fault input e ∧ ∀ other, Fault input other → e.place ≤ other.place

theorem ClearTo.earliest {e : InputError} (h : ClearTo input e.place) (he : Fault input e) :
    Earliest input e :=
  ⟨he, h⟩

/-- What carrying out the checks comes to. -/
inductive Outcome (input : Input) : Except InputError Job → Prop where
  | refused {e : InputError} (h : Earliest input e) : Outcome input (.error e)
  | accepted {job : Job} (sound : ∀ e, ¬ Fault input e) (typed : Typed input job) :
    Outcome input (.ok job)

/-- **The checks refuse the earliest fault**, and accept what has none. -/
theorem outcome_ofInput (input : Input) : Outcome input (ofInput input) := by
  unfold ofInput
  -- the phase error
  rcases readLimit_cases .maxPhaseError input.maxPhaseError with
    ⟨phase, hphase, hread⟩ | ⟨hblank, hread⟩ | ⟨hblank, hnone, hread⟩ <;> rw [hread]
  rotate_left
  · exact .refused (clearTo_zero.earliest (.phaseBlank hblank))
  · exact .refused ((clearTo_zero.next hblank).earliest (.phaseNoNumber hnone))
  have hclear : ClearTo input 2 :=
    (clearTo_zero.next hphase.not_blank).next fun hnone => hnone _ hphase
  dsimp only [bind, Except.bind]
  -- the momentum error and its range
  rcases readLimit_cases .maxMomentumError input.maxMomentumError with
    ⟨momentum, hmomentum, hread⟩ | ⟨hblank, hread⟩ | ⟨hblank, hnone, hread⟩ <;> rw [hread]
  rotate_left
  · exact .refused (hclear.earliest (.momentumBlank hblank))
  · exact .refused ((hclear.next hblank).earliest (.momentumNoNumber hnone))
  have hclear : ClearTo input 4 :=
    (hclear.next hmomentum.not_blank).next fun hnone => hnone _ hmomentum
  have haccepts := acceptsMomentumError_iff hmomentum.isFinite
  dsimp only
  by_cases hrange : Accepted momentum
  swap
  · rw [if_pos (by simpa using fun h => hrange (haccepts.mp h))]
    exact .refused (hclear.earliest (.momentumOutOfRange hmomentum hrange))
  rw [if_neg (by simpa using haccepts.mpr hrange)]
  have hclear : ClearTo input 5 := hclear.next fun ⟨x, hx, houtside⟩ =>
    houtside (hx.unique hmomentum ▸ hrange)
  -- the samples
  rcases readSamples_cases input.kickSamples with
    ⟨samples, hsamples, hread⟩ | ⟨hblank, hread⟩ | ⟨hblank, hnone, hread⟩ <;> rw [hread]
  rotate_left
  · exact .refused (hclear.earliest (.samplesBlank hblank))
  · exact .refused ((hclear.next hblank).earliest (.samplesNoInteger hnone))
  have hclear : ClearTo input 7 :=
    (hclear.next hsamples.not_blank).next fun hnone => hnone _ hsamples
  dsimp only
  -- the cavities
  by_cases hcavities : input.cavities = []
  · rw [if_pos (List.isEmpty_iff.mpr hcavities)]
    exact .refused (hclear.earliest (.noCavities hcavities))
  rw [if_neg fun h => hcavities (List.isEmpty_iff.mp h)]
  exact .accepted (hclear.next hcavities).sound
    ⟨rfl, rfl, hphase, hmomentum, hsamples, firstOccurrences_ofList input.cavities⟩

/-! ## Results -/

/-- A job is typed by one input only in one way. -/
theorem Typed.unique {a b : Job} (ha : Typed input a) (hb : Typed input b) : a = b := by
  have hphase := ha.phase.unique hb.phase
  have hmomentum := ha.momentum.unique hb.momentum
  have hsamples := ha.samples.unique hb.samples
  have hcavities := (ofList_eq_iff.mpr ha.cavities).symm.trans (ofList_eq_iff.mpr hb.cavities)
  have hcorrect := ha.correct.trans hb.correct.symm
  have hcontinuous := ha.continuous.trans hb.continuous.symm
  cases a
  cases b
  simp only at hphase hmomentum hsamples hcavities hcorrect hcontinuous
  simp only [hphase, hmomentum, hsamples, hcavities, hcorrect, hcontinuous]

theorem ofInput_eq_error_iff {e : InputError} : ofInput input = .error e ↔ Earliest input e := by
  have houtcome := outcome_ofInput input
  generalize ofInput input = result at houtcome
  cases houtcome with
  | refused hfirst =>
    refine ⟨fun h => Except.error.inj h ▸ hfirst, fun hother => ?_⟩
    exact congrArg Except.error (hfirst.1.unique hother.1
      (Nat.le_antisymm (hfirst.2 _ hother.1) (hother.2 _ hfirst.1)))
  | accepted hsound => exact ⟨nofun, fun hother => absurd hother.1 (hsound e)⟩

theorem ofInput_eq_ok_iff {job : Job} :
    ofInput input = .ok job ↔ (∀ e, ¬ Fault input e) ∧ Typed input job := by
  have houtcome := outcome_ofInput input
  generalize ofInput input = result at houtcome
  cases houtcome with
  | refused hfirst => exact ⟨nofun, fun hother => absurd hfirst.1 (hother.1 _)⟩
  | accepted hsound htyped =>
    exact ⟨fun h => Except.ok.inj h ▸ ⟨hsound, htyped⟩,
      fun hother => congrArg Except.ok (htyped.unique hother.2)⟩

/-- Inputs that differ in white space around their texts at most. -/
structure Alike (a b : Input) : Prop where
  correct : a.correct = b.correct
  continuous : a.continuous = b.continuous
  phase : Text.trim a.maxPhaseError.toList = Text.trim b.maxPhaseError.toList
  momentum : Text.trim a.maxMomentumError.toList = Text.trim b.maxMomentumError.toList
  samples : Text.trim a.kickSamples.toList = Text.trim b.kickSamples.toList
  cavities : a.cavities = b.cavities

theorem requireText_congr {a b : String} (h : Text.trim a.toList = Text.trim b.toList)
    (field : Field) : requireText field a = requireText field b := by
  rw [requireText, requireText, h]

/-- Only what is trimmed matters. -/
theorem Alike.ofInput {a b : Input} (h : Alike a b) : Job.ofInput a = Job.ofInput b := by
  unfold Job.ofInput readLimit readSamples
  rw [requireText_congr h.phase, requireText_congr h.momentum, requireText_congr h.samples,
    h.correct, h.continuous, h.cavities]

/-- What the checks let through. -/
theorem Typed.sound {job : Job} (h : Typed input job) (clear : ∀ e, ¬ Fault input e) :
    job.hasFiniteLimits = true ∧ Accepted job.maxMomentumError ∧ job.cavities.names ≠ [] := by
  refine ⟨Bool.and_eq_true_iff.mpr ⟨h.phase.isFinite, h.momentum.isFinite⟩, ?_, fun hnone => ?_⟩
  · by_contra houtside
    exact clear _ (.momentumOutOfRange h.momentum houtside)
  · refine clear _ (.noCavities (List.eq_nil_iff_forall_not_mem.mpr fun name hname => ?_))
    have hkept := (h.cavities.members name).mpr hname
    rw [hnone] at hkept
    cases hkept

/-- **The input of an operator is validated exactly.** It is refused with the fault of the earliest
check; it is accepted when there is none, and then the job is the one that was typed. White space
around the texts does not matter. An accepted job has finite limits, a momentum error within the
range and at least one cavity; as a value of a document its limits are numbers, and it is the job of
that value. -/
theorem ofInput_exact (input : Input) :
    (∀ e, ofInput input = .error e ↔
        Fault input e ∧ ∀ other, Fault input other → e.place ≤ other.place) ∧
      ((∃ job, ofInput input = .ok job) ↔ ∀ e, ¬ Fault input e) ∧
      (∀ job, ofInput input = .ok job ↔ (∀ e, ¬ Fault input e) ∧ Typed input job) ∧
      (∀ other, Alike other input → ofInput other = ofInput input) ∧
      ∀ job, ofInput input = .ok job →
        job.hasFiniteLimits = true ∧ Accepted job.maxMomentumError ∧ job.cavities.names ≠ [] ∧
          (∃ members phase momentum, job.toJson = .object members ∧
            Members.get? members "max-phase-error" = some (.number phase) ∧
            Members.get? members "max-momentum-error" = some (.number momentum)) ∧
          ofJson job.toJson = .ok job := by
  refine ⟨fun e => ofInput_eq_error_iff, ⟨?_, fun clear => ?_⟩, fun job => ofInput_eq_ok_iff,
    fun other h => h.ofInput, fun job h => ?_⟩
  · rintro ⟨job, h⟩
    exact (ofInput_eq_ok_iff.mp h).1
  · have houtcome := outcome_ofInput input
    generalize ofInput input = result at houtcome
    cases houtcome with
    | refused hfirst => exact absurd hfirst.1 (clear _)
    | accepted => exact ⟨_, rfl⟩
  · obtain ⟨clear, htyped⟩ := ofInput_eq_ok_iff.mp h
    obtain ⟨hfinite, haccepted, hcavities⟩ := htyped.sound clear
    exact ⟨hfinite, haccepted, hcavities, ⟨_, _, _, toJson_eq hfinite, rfl, rfl⟩,
      ofJson_toJson hfinite⟩

/-- What an operator typed, with white space of several kinds. -/
def looseInput : Input where
  correct := true
  maxPhaseError := "\u00a0.5e1\t"
  maxMomentumError := "\u2003+0.0000001 "
  kickSamples := "\n-32"
  cavities := ["a", "b", "a"]

/-- The same without it. -/
def tightInput : Input :=
  { looseInput with
    maxPhaseError := ".5e1"
    maxMomentumError := "+0.0000001"
    kickSamples := "-32" }

/-- The job that was typed. Its momentum error is the least one that is accepted. -/
def looseJob : Job where
  correct := true
  continuous := false
  maxPhaseError := Binary.ofNat 5
  maxMomentumError := leastMomentumError
  kickSamples := -32
  cavities := .ofList ["a", "b"]

theorem ofInput_exact_loose :
    ofInput tightInput = ofInput looseInput ∧ ofInput looseInput = .ok looseJob ∧
      looseJob.hasFiniteLimits = true ∧ Accepted looseJob.maxMomentumError ∧
      ofJson looseJob.toJson = .ok looseJob := by
  have hread : ofInput looseInput = .ok looseJob := by decide +kernel
  have halike : Alike tightInput looseInput :=
    ⟨rfl, rfl, by decide +kernel, by decide +kernel, by decide +kernel, rfl⟩
  obtain ⟨-, -, -, hsame, hsound⟩ := ofInput_exact looseInput
  obtain ⟨hfinite, haccepted, -, -, hback⟩ := hsound looseJob hread
  exact ⟨hsame tightInput halike, hread, hfinite, haccepted, hback⟩

end CavityConsole.Job

import CavityConsole.Proofs.Binary.Rounds
import CavityConsole.Proofs.Console.Payload
import CavityConsole.Proofs.Job.RoundTrip
import CavityConsole.Proofs.Outcome

/-!
# Which values are jobs

Six values make a job when each has the type of its place (`SixValues`): two truth values, two
numbers, a whole number of 32 bits and a list of strings. The numbers are rounded to 32 bits
(`IsRounded`), and of the strings the first occurrences are kept.

**The law** (`ofJson_eq_ok_iff`): a value is read as a job exactly when it is an object with these
six values under their names, whatever else it holds, or the list of exactly these six values.
-/

namespace CavityConsole

/-! ## First occurrences -/

/-- The first occurrences of a list are in one order only. -/
theorem FirstOccurrences.unique {written a b : List String} (ha : FirstOccurrences written a)
    (hb : FirstOccurrences written b) : a = b := by
  have hnodup : ∀ {kept}, FirstOccurrences written kept → kept.Nodup := fun hkept =>
    hkept.ordered.imp fun hlt heq => absurd (heq ▸ hlt) (Nat.lt_irrefl _)
  have hperm : a.Perm b := (List.perm_ext_iff_of_nodup (hnodup ha) (hnodup hb)).mpr fun name =>
    (ha.members name).trans (hb.members name).symm
  exact hperm.eq_of_pairwise (fun _ _ _ _ hlt hgt => absurd hlt (Nat.lt_asymm hgt))
    ha.ordered hb.ordered

theorem ofList_eq_iff {names : List String} {cavities : CavityList} :
    CavityList.ofList names = cavities ↔ FirstOccurrences names cavities.names := by
  constructor
  · rintro rfl
    exact firstOccurrences_ofList names
  · intro h
    have hnames := (firstOccurrences_ofList names).unique h
    obtain ⟨kept, hnodup⟩ := cavities
    unfold CavityList.ofList at hnames ⊢
    dsimp only at hnames
    simp only [hnames]

namespace Job

open Json Binary

/-! ## Numbers -/

/-- What a number is in 32 bits. No line has a number that is not finite. -/
inductive IsRounded : Number → Single → Prop where
  | integer {i : Int} {x : Single} (rounds : Format.single.Rounds |(i : ℚ)| x.code)
    (sign : x.negative = decide (i < 0)) : IsRounded (.integer i) x
  | real {y : Double} {x : Single} (finite : y.isFinite = true)
    (rounds : Format.single.Rounds y.amount x.code) (sign : x.negative = y.negative) :
    IsRounded (.real y) x
  | infinite {y : Double} (finite : y.isFinite = false) (number : y.isNaN = false) :
    IsRounded (.real y) (infinite y.negative)
  | notANumber {y : Double} (number : y.isNaN = true) : IsRounded (.real y) (notANumber y.negative)

theorem isRounded_toSingle (n : Number) : IsRounded n n.toSingle := by
  cases n with
  | integer i =>
    obtain ⟨hrounds, hsign⟩ := rounds_ofInt (f := Format.single) i
    exact .integer hrounds hsign
  | real y =>
    show IsRounded _ (y.convert Format.single)
    by_cases hfinite : y.isFinite = true
    · obtain ⟨hrounds, hsign⟩ := rounds_convert (g := Format.single) hfinite
      exact .real hfinite hrounds hsign
    · rw [convert, if_neg hfinite]
      split
      next hnumber => exact .notANumber hnumber
      next hnumber =>
        exact .infinite (Bool.eq_false_of_not_eq_true hfinite)
          (Bool.eq_false_of_not_eq_true hnumber)

/-- A number is rounded to one value. -/
theorem isRounded_iff {n : Number} {x : Single} : IsRounded n x ↔ n.toSingle = x := by
  refine ⟨fun h => ?_, fun h => h ▸ isRounded_toSingle n⟩
  have hsingle := isRounded_toSingle n
  cases h with
  | integer hrounds hsign =>
    obtain ⟨hrounds', hsign'⟩ := hsingle
    exact eq_of_parts (hrounds'.unique hrounds) (hsign'.trans hsign.symm)
  | real hfinite hrounds hsign =>
    obtain ⟨hrounds', hsign'⟩ := rounds_convert (g := Format.single) hfinite
    exact eq_of_parts (hrounds'.unique hrounds) (hsign'.trans hsign.symm)
  | infinite hfinite hnumber =>
    show Binary.convert _ _ = _
    rw [convert, if_neg (by simp [hfinite]), if_neg (by simp [hnumber])]
  | notANumber hnumber =>
    show Binary.convert _ _ = _
    rw [convert, if_neg (by simp [isFinite_eq_false_of_isNaN hnumber]), if_pos hnumber]

/-! ## Values of one type -/

theorem readBoolean_eq_ok_iff {value : Json} {b : Bool} :
    readBoolean value = .ok b ↔ value = .boolean b := by
  cases value <;> simp [readBoolean]

theorem readSingle_eq_ok_iff {value : Json} {x : Single} :
    readSingle value = .ok x ↔ ∃ n, value = .number n ∧ IsRounded n x := by
  cases value <;> simp [readSingle, isRounded_iff]

theorem readInt32_eq_ok_iff {value : Json} {i : Int32} :
    readInt32 value = .ok i ↔ value = .number (.integer i.toInt) := by
  constructor
  · intro h
    unfold readInt32 at h
    split at h
    next k =>
      split at h
      next hrange =>
        cases h
        rw [Int32.toInt_ofInt_of_le hrange.1 (Int.lt_of_le_sub_one hrange.2)]
      next => cases h
    next => cases h
  · rintro rfl
    exact readInt32_toInt i

theorem readString_eq_ok_iff {value : Json} {text : String} :
    readString value = .ok text ↔ value = .string text := by
  cases value <;> simp [readString]

theorem mapM_readString_eq_ok_iff {elements : List Json} {names : List String} :
    elements.mapM readString = .ok names ↔ elements = names.map .string := by
  refine ⟨fun h => ?_, ?_⟩
  · induction elements generalizing names with
    | nil =>
      cases h
      rfl
    | cons element elements ih =>
      rw [List.mapM_cons] at h
      obtain ⟨name, hname, h⟩ := bind_eq_ok_iff.mp h
      obtain ⟨others, hothers, h⟩ := bind_eq_ok_iff.mp h
      cases h
      rw [List.map_cons, ← ih hothers, readString_eq_ok_iff.mp hname]
  · rintro rfl
    exact readStrings_names names

theorem readStrings_eq_ok_iff {value : Json} {names : List String} :
    readStrings value = .ok names ↔ value = .array (names.map .string) := by
  cases value with
  | array elements =>
    rw [Json.array.injEq]
    exact mapM_readString_eq_ok_iff
  | null | boolean | number | string | object => exact ⟨nofun, nofun⟩

/-! ## Six values -/

/-- Six values that make a job. -/
structure SixValues (correct continuous phase momentum samples cavities : Json) (job : Job) :
    Prop where
  correct : correct = .boolean job.correct
  continuous : continuous = .boolean job.continuous
  phase : ∃ n, phase = .number n ∧ IsRounded n job.maxPhaseError
  momentum : ∃ n, momentum = .number n ∧ IsRounded n job.maxMomentumError
  samples : samples = .number (.integer job.kickSamples.toInt)
  cavities : ∃ names : List String, cavities = .array (names.map .string) ∧
    FirstOccurrences names job.cavities.names

/-- A value that gives a job. -/
inductive Gives : Json → Job → Prop where
  /-- An object with the six values under their names, and whatever else. -/
  | object {members : Members} {job : Job}
    {correct continuous phase momentum samples cavities : Json}
    (correctMember : members.get? "correct" = some correct)
    (continuousMember : members.get? "continuous" = some continuous)
    (phaseMember : members.get? "max-phase-error" = some phase)
    (momentumMember : members.get? "max-momentum-error" = some momentum)
    (samplesMember : members.get? "kick-samples" = some samples)
    (cavitiesMember : members.get? "cavities" = some cavities)
    (six : SixValues correct continuous phase momentum samples cavities job) :
    Gives (.object members) job
  /-- The list of the six values, and nothing else. -/
  | list {job : Job} {correct continuous phase momentum samples cavities : Json}
    (six : SixValues correct continuous phase momentum samples cavities job) :
    Gives (.array [correct, continuous, phase, momentum, samples, cavities]) job

/-- Six values make a job when they are read as its parts. -/
theorem sixValues_iff {correct continuous phase momentum samples cavities : Json} {job : Job} :
    SixValues correct continuous phase momentum samples cavities job ↔
      readBoolean correct = .ok job.correct ∧ readBoolean continuous = .ok job.continuous ∧
      readSingle phase = .ok job.maxPhaseError ∧ readSingle momentum = .ok job.maxMomentumError ∧
      readInt32 samples = .ok job.kickSamples ∧
      ∃ names, readStrings cavities = .ok names ∧ CavityList.ofList names = job.cavities := by
  simp only [readBoolean_eq_ok_iff, readSingle_eq_ok_iff, readInt32_eq_ok_iff,
    readStrings_eq_ok_iff, ofList_eq_iff]
  exact ⟨fun ⟨h₁, h₂, h₃, h₄, h₅, h₆⟩ => ⟨h₁, h₂, h₃, h₄, h₅, h₆⟩,
    fun ⟨h₁, h₂, h₃, h₄, h₅, h₆⟩ => ⟨h₁, h₂, h₃, h₄, h₅, h₆⟩⟩

section

variable {α : Type} {read : Json → Except Mismatch α}

/-- A member that has to be there and is read. -/
theorem exists_of_required {members : Members} {name : String} {found : Option α} {a : α}
    (hfound : optionalMember read members name = .ok found) (ha : required name found = .ok a) :
    ∃ value, members.get? name = some value ∧ read value = .ok a := by
  cases found with
  | none => cases ha
  | some b =>
    cases ha
    unfold optionalMember at hfound
    split at hfound
    next => cases hfound
    next value hvalue =>
      refine ⟨value, hvalue, ?_⟩
      cases hread : read value with
      | error mismatch =>
        rw [hread] at hfound
        cases hfound
      | ok b =>
        rw [hread] at hfound
        cases hfound
        rfl

/-- An element that has to be there and is read. -/
theorem exists_of_element {index : Nat} {values rest : List Json} {a : α}
    (h : element read index values = .ok (a, rest)) :
    ∃ value, values = value :: rest ∧ read value = .ok a := by
  cases values with
  | nil => cases h
  | cons value others =>
    refine ⟨value, ?_⟩
    rw [element] at h
    cases hread : read value with
    | error mismatch =>
      rw [hread] at h
      cases h
    | ok b =>
      rw [hread] at h
      cases h
      exact ⟨rfl, rfl⟩

end

theorem gives_of_ofMembers {members : Members} {job : Job} (h : ofMembers members = .ok job) :
    Gives (.object members) job := by
  obtain ⟨_, hcavities, h⟩ := bind_eq_ok_iff.mp h
  obtain ⟨_, hcontinuous, h⟩ := bind_eq_ok_iff.mp h
  obtain ⟨_, hcorrect, h⟩ := bind_eq_ok_iff.mp h
  obtain ⟨_, hsamples, h⟩ := bind_eq_ok_iff.mp h
  obtain ⟨_, hmomentum, h⟩ := bind_eq_ok_iff.mp h
  obtain ⟨_, hphase, h⟩ := bind_eq_ok_iff.mp h
  obtain ⟨correct, hcorrectRead, h⟩ := bind_eq_ok_iff.mp h
  obtain ⟨continuous, hcontinuousRead, h⟩ := bind_eq_ok_iff.mp h
  obtain ⟨phase, hphaseRead, h⟩ := bind_eq_ok_iff.mp h
  obtain ⟨momentum, hmomentumRead, h⟩ := bind_eq_ok_iff.mp h
  obtain ⟨samples, hsamplesRead, h⟩ := bind_eq_ok_iff.mp h
  obtain ⟨names, hcavitiesRead, h⟩ := bind_eq_ok_iff.mp h
  cases h
  obtain ⟨_, hcorrectMember, hcorrect⟩ := exists_of_required hcorrect hcorrectRead
  obtain ⟨_, hcontinuousMember, hcontinuous⟩ := exists_of_required hcontinuous hcontinuousRead
  obtain ⟨_, hphaseMember, hphase⟩ := exists_of_required hphase hphaseRead
  obtain ⟨_, hmomentumMember, hmomentum⟩ := exists_of_required hmomentum hmomentumRead
  obtain ⟨_, hsamplesMember, hsamples⟩ := exists_of_required hsamples hsamplesRead
  obtain ⟨_, hcavitiesMember, hcavities⟩ := exists_of_required hcavities hcavitiesRead
  exact .object hcorrectMember hcontinuousMember hphaseMember hmomentumMember hsamplesMember
    hcavitiesMember (sixValues_iff.mpr
      ⟨hcorrect, hcontinuous, hphase, hmomentum, hsamples, names, hcavities, rfl⟩)

theorem gives_of_ofElements {values : List Json} {job : Job} (h : ofElements values = .ok job) :
    Gives (.array values) job := by
  obtain ⟨⟨correct, rest⟩, hcorrectTaken, h⟩ := bind_eq_ok_iff.mp h
  obtain ⟨⟨continuous, rest⟩, hcontinuousTaken, h⟩ := bind_eq_ok_iff.mp h
  obtain ⟨⟨phase, rest⟩, hphaseTaken, h⟩ := bind_eq_ok_iff.mp h
  obtain ⟨⟨momentum, rest⟩, hmomentumTaken, h⟩ := bind_eq_ok_iff.mp h
  obtain ⟨⟨samples, rest⟩, hsamplesTaken, h⟩ := bind_eq_ok_iff.mp h
  obtain ⟨⟨names, rest⟩, hcavitiesTaken, h⟩ := bind_eq_ok_iff.mp h
  obtain ⟨_, rfl, hcorrect⟩ := exists_of_element hcorrectTaken
  obtain ⟨_, rfl, hcontinuous⟩ := exists_of_element hcontinuousTaken
  obtain ⟨_, rfl, hphase⟩ := exists_of_element hphaseTaken
  obtain ⟨_, rfl, hmomentum⟩ := exists_of_element hmomentumTaken
  obtain ⟨_, rfl, hsamples⟩ := exists_of_element hsamplesTaken
  obtain ⟨_, rfl, hcavities⟩ := exists_of_element hcavitiesTaken
  cases rest with
  | cons => cases h
  | nil =>
    cases h
    exact .list (sixValues_iff.mpr
      ⟨hcorrect, hcontinuous, hphase, hmomentum, hsamples, names, hcavities, rfl⟩)

theorem Gives.ofJson {value : Json} {job : Job} (h : Gives value job) :
    Job.ofJson value = .ok job := by
  cases h with
  | object hcorrectMember hcontinuousMember hphaseMember hmomentumMember hsamplesMember
      hcavitiesMember six =>
    obtain ⟨hcorrect, hcontinuous, hphase, hmomentum, hsamples, names, hcavities, hnames⟩ :=
      sixValues_iff.mp six
    rw [Job.ofJson, ofMembers, optionalMember_eq hcavitiesMember hcavities,
      optionalMember_eq hcontinuousMember hcontinuous, optionalMember_eq hcorrectMember hcorrect,
      optionalMember_eq hsamplesMember hsamples, optionalMember_eq hmomentumMember hmomentum,
      optionalMember_eq hphaseMember hphase]
    show Except.ok { job with cavities := CavityList.ofList names } = _
    rw [hnames]
  | list six =>
    obtain ⟨hcorrect, hcontinuous, hphase, hmomentum, hsamples, names, hcavities, hnames⟩ :=
      sixValues_iff.mp six
    simp only [Job.ofJson, ofElements, element, hcorrect, hcontinuous, hphase, hmomentum, hsamples,
      hcavities, Except.map, bind, Except.bind, List.isEmpty_nil, reduceIte]
    show Except.ok { job with cavities := CavityList.ofList names } = _
    rw [hnames]

/-- **Which values are jobs.** -/
theorem ofJson_eq_ok_iff {value : Json} {job : Job} :
    Job.ofJson value = .ok job ↔ Gives value job := by
  refine ⟨fun h => ?_, Gives.ofJson⟩
  cases value with
  | object members => exact gives_of_ofMembers h
  | array values => exact gives_of_ofElements h
  | null | boolean | number | string => cases h

end Job

end CavityConsole

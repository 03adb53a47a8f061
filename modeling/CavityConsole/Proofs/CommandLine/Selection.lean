import CavityConsole.CommandLine.Run
import CavityConsole.Proofs.Job.Input

/-!
# Which cavities a start chooses

A start asks for cavities by name or for all that the server has, and what it asks for is looked up
before anything else: the first name that the server does not have is reported, whatever was typed
for the numbers. Only then the input is validated, with the cavities that were asked for.

**The law** (`job_iff_selects`): what a start comes to (`StartArguments.Selects`). A job that it
gives names cavities of the server only, each at the place where it was asked for first; a start on
all cavities gives them in the order of the server.

**What it does not establish.** That the server still has a cavity when the job arrives there; the
cavities are those that were listed when the session was opened or refreshed.
-/

namespace CavityConsole

/-- The first of the names that is no cavity of the server. -/
def FirstUnknown (known : CavityList) (names : List String) (name : String) : Prop :=
  ∃ before after, names = before ++ name :: after ∧ (∀ other ∈ before, other ∈ known.names) ∧
    name ∉ known.names

/-- What a start comes to on a server with these cavities. -/
inductive StartArguments.Selects (arguments : StartArguments) (known : CavityList) :
    Except RunError Job → Prop where
  | unknown {name : String} (first : FirstUnknown known (arguments.candidates known) name) :
    Selects arguments known (.error (.unknownCavity name))
  | refused {error : Job.InputError}
    (listed : ∀ name ∈ arguments.candidates known, name ∈ known.names)
    (earliest : Job.Earliest (arguments.input (arguments.candidates known)) error) :
    Selects arguments known (.error (.job error))
  | accepted {job : Job} (listed : ∀ name ∈ arguments.candidates known, name ∈ known.names)
    (sound : ∀ error, ¬ Job.Fault (arguments.input (arguments.candidates known)) error)
    (typed : Job.Typed (arguments.input (arguments.candidates known)) job) :
    Selects arguments known (.ok job)

namespace CavityList

variable {known : CavityList} {names : List String}

theorem find?_unlisted_eq_some_iff {name : String} :
    names.find? (!known.contains ·) = some name ↔ FirstUnknown known names name := by
  rw [List.find?_eq_some_iff_append]
  simp only [contains, Bool.not_eq_true', Bool.not_not, List.contains_eq_mem,
    decide_eq_false_iff_not, decide_eq_true_eq]
  constructor
  · rintro ⟨hunlisted, before, after, hsplit, hlisted⟩
    exact ⟨before, after, hsplit, hlisted, hunlisted⟩
  · rintro ⟨before, after, hsplit, hlisted, hunlisted⟩
    exact ⟨hunlisted, before, after, hsplit, hlisted⟩

theorem find?_unlisted_eq_none_iff :
    names.find? (!known.contains ·) = none ↔ ∀ name ∈ names, name ∈ known.names := by
  simp [contains]

end CavityList

namespace StartArguments

variable {arguments : StartArguments} {known : CavityList}

/-- **A start comes to one of the three.** -/
theorem selects_job (arguments : StartArguments) (known : CavityList) :
    arguments.Selects known (arguments.job known) := by
  unfold job
  dsimp only
  cases hfind : (arguments.candidates known).find? (!known.contains ·) with
  | some name => exact .unknown (CavityList.find?_unlisted_eq_some_iff.mp hfind)
  | none =>
    have hlisted := CavityList.find?_unlisted_eq_none_iff.mp hfind
    cases hinput : Job.ofInput (arguments.input (arguments.candidates known)) with
    | error error => exact .refused hlisted (Job.ofInput_eq_error_iff.mp hinput)
    | ok job =>
      obtain ⟨hsound, htyped⟩ := Job.ofInput_eq_ok_iff.mp hinput
      exact .accepted hlisted hsound htyped

/-- A start comes to nothing else. -/
theorem Selects.job_eq {result : Except RunError Job} (h : arguments.Selects known result) :
    arguments.job known = result := by
  cases h with
  | unknown first => rw [job, CavityList.find?_unlisted_eq_some_iff.mpr first]
  | refused listed earliest =>
    rw [job, CavityList.find?_unlisted_eq_none_iff.mpr listed]
    exact congrArg (Except.mapError _) (Job.ofInput_eq_error_iff.mpr earliest)
  | accepted listed sound typed =>
    rw [job, CavityList.find?_unlisted_eq_none_iff.mpr listed]
    exact congrArg (Except.mapError _) (Job.ofInput_eq_ok_iff.mpr ⟨sound, typed⟩)

theorem job_eq_iff {result : Except RunError Job} :
    arguments.job known = result ↔ arguments.Selects known result :=
  ⟨fun h => h ▸ selects_job arguments known, Selects.job_eq⟩

/-- Every cavity of the server is one that it has. -/
theorem listed_of_all (h : arguments.allCavities = true) :
    ∀ name ∈ arguments.candidates known, name ∈ known.names := by
  rw [candidates, if_pos h]
  exact fun _ => id

/-- A job that is given names cavities of the server, where they were asked for first. -/
theorem cavities_of_job {job : Job} (h : arguments.job known = .ok job) :
    FirstOccurrences (arguments.candidates known) job.cavities.names ∧
      ∀ name ∈ job.cavities.names, name ∈ known.names := by
  cases job_eq_iff.mp h with
  | accepted listed _ typed =>
    exact ⟨typed.cavities, fun name hname => listed name ((typed.cavities.members name).mp hname)⟩

/-- **A start without candidates gives no job.** What is reported is the lack of cavities, unless
something else is wrong too. -/
theorem job_of_no_candidates (h : arguments.candidates known = []) :
    ∃ error, arguments.job known = .error (.job error) ∧
      (error = .noCavities ↔
        ∀ fault, Job.Fault (arguments.input []) fault → fault = .noCavities) := by
  have hfault : Job.Fault (arguments.input []) .noCavities := .noCavities rfl
  have hselects := selects_job arguments known
  generalize arguments.job known = result at hselects
  cases hselects with
  | unknown first =>
    obtain ⟨before, after, hsplit, -⟩ := first
    rw [h] at hsplit
    exact absurd hsplit.symm (List.append_ne_nil_of_right_ne_nil _ (List.cons_ne_nil _ _))
  | accepted _ sound => exact absurd (h ▸ hfault) (sound .noCavities)
  | @refused error _ earliest =>
    rw [h] at earliest
    refine ⟨error, rfl, ?_, fun hnone => hnone error earliest.1⟩
    rintro rfl fault hother
    -- no check comes after the one for cavities
    have hplace := earliest.2 fault hother
    cases hother with
    | noCavities => rfl
    | _ => simp [Job.InputError.place] at hplace

/-- **A start names known cavities only, in the order intended.** It is refused for the first name
that is no cavity of the server, whatever the numbers are; then for the earliest fault of its input;
and otherwise it gives the job that was typed, on the first occurrences of the names asked for, each
of them a cavity of the server. Without names there is no job. A start on all cavities is never
refused for a name, and its job has the cavities of the server in their order. -/
theorem job_iff_selects (arguments : StartArguments) (known : CavityList) :
    (∀ result, arguments.job known = result ↔ arguments.Selects known result) ∧
      (∀ name, arguments.job known = .error (.unknownCavity name) →
        ∀ other : StartArguments, other.allCavities = arguments.allCavities →
          other.cavities = arguments.cavities →
            other.job known = .error (.unknownCavity name)) ∧
      (∀ error, arguments.job known = .error (.job error) →
        Job.ofInput (arguments.input (arguments.candidates known)) = .error error) ∧
      (arguments.candidates known = [] →
        ∃ error, arguments.job known = .error (.job error) ∧
          (error = .noCavities ↔
            ∀ fault, Job.Fault (arguments.input []) fault → fault = .noCavities)) ∧
      (∀ job, arguments.job known = .ok job →
        FirstOccurrences (arguments.candidates known) job.cavities.names ∧
          ∀ name ∈ job.cavities.names, name ∈ known.names) ∧
      (arguments.allCavities = true →
        (∀ name, arguments.job known ≠ .error (.unknownCavity name)) ∧
          ∀ job, arguments.job known = .ok job → job.cavities = known) := by
  refine ⟨fun result => job_eq_iff, fun name h other hall hnames => ?_, fun error h => ?_,
    job_of_no_candidates, fun job => cavities_of_job,
    fun hall => ⟨fun name h => ?_, fun job h => ?_⟩⟩
  · cases job_eq_iff.mp h with
    | unknown first =>
      refine job_eq_iff.mpr (.unknown ?_)
      rwa [candidates, hall, hnames]
  · cases job_eq_iff.mp h with
    | refused _ earliest => exact Job.ofInput_eq_error_iff.mpr earliest
  · cases job_eq_iff.mp h with
    | unknown first =>
      obtain ⟨before, after, hsplit, -, hunlisted⟩ := first
      have hname : name ∈ arguments.candidates known := by simp [hsplit]
      exact hunlisted (listed_of_all hall name hname)
  · have hfirst := (cavities_of_job h).1
    rw [candidates, if_pos hall] at hfirst
    exact (ofList_eq_iff.mpr hfirst).symm.trans (Job.ofList_names known)

/-- The cavities of a server. -/
def threeCavities : CavityList := .ofList ["a", "b", "c"]

/-- A start that names one cavity twice. -/
def namedStart : StartArguments where
  correct := true
  maxPhaseError := "5"
  maxMomentumError := "0.5"
  kickSamples := "32"
  cavities := ["c", "a", "c"]

/-- The same over and over on all cavities. -/
def fullStart : StartArguments :=
  { namedStart with continuous := true, allCavities := true, cavities := [] }

/-- The job that both are, once or over and over, on their cavities. -/
def typedJob (continuous : Bool) (cavities : CavityList) : Job where
  correct := true
  continuous := continuous
  maxPhaseError := Binary.ofNat 5
  maxMomentumError := Binary.ofRatio false 1 2
  kickSamples := 32
  cavities := cavities

/-- A start with nothing typed for its numbers, and with two names that no cavity has. -/
def strayStart : StartArguments := { cavities := ["a", "y", "x"] }

theorem job_iff_selects_three :
    namedStart.job threeCavities = .ok (typedJob false (.ofList ["c", "a"])) ∧
      FirstOccurrences ["c", "a", "c"] ["c", "a"] ∧
      fullStart.job threeCavities = .ok (typedJob true threeCavities) ∧
      strayStart.Selects threeCavities (.error (.unknownCavity "y")) ∧
      { strayStart with kickSamples := "32" }.job threeCavities = .error (.unknownCavity "y") := by
  obtain ⟨-, -, -, -, hjob, -⟩ := job_iff_selects namedStart threeCavities
  obtain ⟨hselects, hother, -⟩ := job_iff_selects strayStart threeCavities
  have hnamed : namedStart.job threeCavities = .ok (typedJob false (.ofList ["c", "a"])) := by
    decide +kernel
  have hstray : strayStart.job threeCavities = .error (.unknownCavity "y") := by decide +kernel
  exact ⟨hnamed, (hjob _ hnamed).1, by decide +kernel, (hselects _).mp hstray,
    hother "y" hstray _ rfl rfl⟩

end StartArguments

end CavityConsole

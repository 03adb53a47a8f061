import CavityConsole.CommandLine.Reading
import CavityConsole.Proofs.CommandLine.Recognition
import CavityConsole.Proofs.Text.Typing

/-!
# What command lines ask for

A command line asks for a request in words (`Request.AskedBy`): the command comes first, and what it
is given stands behind it. Most commands are given nothing. A start is given its flags, the three
values of its job and cavities by name or all of them (`Request.StartGives`); applying corrections
is given at least one result. A command line may also ask for help (`Request.AsksHelp`).

**The law** (`Request.ofArguments_eq_ok_iff`, `Request.ofArguments_eq_help_iff`): what is read is
what is asked for. A command line that asks for neither is an error of usage.
-/

namespace CavityConsole

/-! ## Results -/

/-- What is typed for the identifier of a result: a whole number without a minus sign. -/
structure ResultId.Typed (word : String) (id : ResultId) : Prop where
  whole : Text.WholeNumber (Text.trim word.toList) id.value.toNat
  unsigned : ∀ digits, Text.trim word.toList ≠ '-' :: digits

theorem ResultId.read_eq_ok_iff {word : String} {id : ResultId} :
    ResultId.read word = .ok id ↔ ResultId.Typed word id := by
  have hsize : 0 < UInt64.size := by decide
  rw [ResultId.read, map_eq_ok_iff]
  constructor
  · rintro ⟨n, hread, rfl⟩
    obtain ⟨hwhole, hfits, hunsigned⟩ := Text.readNat_eq_ok_iff_whole.mp hread
    have hvalue : (UInt64.ofNat n).toNat = n :=
      UInt64.toNat_ofNat_of_lt' (Nat.lt_of_le_sub_one hsize hfits)
    refine ⟨?_, hunsigned⟩
    rwa [hvalue]
  · rintro ⟨hwhole, hunsigned⟩
    refine ⟨id.value.toNat, Text.readNat_eq_ok_iff_whole.mpr ⟨hwhole, ?_, hunsigned⟩, ?_⟩
    · exact Nat.le_sub_one_of_lt id.value.toNat_lt
    · rw [UInt64.ofNat_toNat]

namespace Request

/-! ## What is asked for -/

/-- The commands that are given nothing. -/
inductive Plain : String → Request → Prop where
  | version : Plain "version" (.operate .version)
  | cavities : Plain "cavities" (.operate .cavities)
  | pause : Plain "pause" (.operate .pause)
  | resume : Plain "resume" (.operate .resume)
  | stop : Plain "stop" (.operate .stop)
  | skip : Plain "skip" (.operate .skip)
  | watch : Plain "watch" .watch

/-- What a start can be given. -/
inductive StartTakes : Given → Prop where
  | correct : StartTakes (.flag "correct")
  | continuous : StartTakes (.flag "continuous")
  | maxPhaseError (value : String) : StartTakes (.option "max-phase-error" value)
  | maxMomentumError (value : String) : StartTakes (.option "max-momentum-error" value)
  | kickSamples (value : String) : StartTakes (.option "kick-samples" value)
  | allCavities : StartTakes (.flag "all-cavities")
  | cavity (name : String) : StartTakes (.word name)

/-- The start that is asked for by what is given. -/
structure StartGives (given : List Given) (arguments : StartArguments) : Prop where
  correct : arguments.correct = true ↔ .flag "correct" ∈ given
  continuous : arguments.continuous = true ↔ .flag "continuous" ∈ given
  maxPhaseError : .option "max-phase-error" arguments.maxPhaseError ∈ given
  maxMomentumError : .option "max-momentum-error" arguments.maxMomentumError ∈ given
  kickSamples : .option "kick-samples" arguments.kickSamples ∈ given
  allCavities : arguments.allCavities = true ↔ .flag "all-cavities" ∈ given
  /-- The cavities are the words, in their order. -/
  cavities : arguments.cavities = given.filterMap Given.word?
  /-- No cavity is named beside asking for all of them. -/
  exclusive : arguments.allCavities = true → arguments.cavities = []

/-- What a command line asks for. -/
inductive AskedBy : List Argument → Request → Prop where
  | plain {word : String} {request : Request} {rest : List Argument} (command : Plain word request)
    (nothing : SpellsAll rest []) : AskedBy (.ofText word :: rest) request
  | start {rest : List Argument} {given : List Given} {arguments : StartArguments}
    (spells : SpellsAll rest given) (takes : ∀ piece ∈ given, StartTakes piece)
    (once : (given.filterMap Given.name?).Nodup) (gives : StartGives given arguments) :
    AskedBy (.ofText "start" :: rest) (.operate (.start arguments))
  | applyCorrections {rest : List Argument} {words : List String} {results : List ResultId}
    (spells : SpellsAll rest (words.map .word)) (typed : List.Forall₂ ResultId.Typed words results)
    (nonempty : results ≠ []) :
    AskedBy (.ofText "apply-corrections" :: rest) (.operate (.applyCorrections results))

/-- A command line that asks for help: in place of the command, or behind a command and something
that this command can be given. -/
inductive AsksHelp : List Argument → Prop where
  | program {helper : Argument} {rest : List Argument} (asks : helper.AsksHelp) :
    AsksHelp (helper :: rest)
  | plain {word : String} {request : Request} {helper : Argument} {rest : List Argument}
    (command : Plain word request) (asks : helper.AsksHelp) :
    AsksHelp (.ofText word :: helper :: rest)
  | start {front back : List Argument} {given : List Given} {helper : Argument}
    (spells : Spells front given) (takes : ∀ piece ∈ given, StartTakes piece)
    (once : (given.filterMap Given.name?).Nodup) (asks : helper.AsksHelp) :
    AsksHelp (.ofText "start" :: (front ++ helper :: back))
  | applyCorrections {front back : List Argument} {words : List String} {helper : Argument}
    (spells : Spells front (words.map .word)) (typed : ∀ word ∈ words, ∃ id, ResultId.Typed word id)
    (asks : helper.AsksHelp) :
    AsksHelp (.ofText "apply-corrections" :: (front ++ helper :: back))

/-! ## Grammars -/

open CommandName

theorem regular_nothing : ({} : Grammar).Regular where
  names := List.nodup_nil
  shown := List.nodup_nil
  plain := by simp
  place := by simp
  text := by simp

theorem regular_start : CommandName.start.grammar.Regular where
  names := by decide
  shown := by decide
  plain := by
    simp [CommandName.grammar, correct, continuous, allCavities, maxPhaseError, maxMomentumError,
      kickSamples, Argument.bytes_ofText, Transport.bytesOf_eq, String.utf8EncodeChar,
      Argument.equalsSign]
  place := by
    rintro place ⟨rfl⟩
    decide
  text := by
    rintro place ⟨rfl⟩ argument h
    cases htext : argument.text? with
    | none => simp [cavityPlace, htext] at h
    | some word => exact ⟨word, Argument.text?_eq_some_iff.mp htext⟩

/-- An identifier is accepted when it is typed as one. -/
theorem resultPlace_check_iff {argument : Argument} :
    resultPlace.check argument = none ↔
      ∃ word, argument = .ofText word ∧ ∃ id, ResultId.Typed word id := by
  simp only [← Argument.text?_eq_some_iff, ← ResultId.read_eq_ok_iff, resultPlace]
  cases argument.text? with
  | none => simp
  | some word => cases hread : ResultId.read word <;> simp [hread]

theorem regular_applyCorrections : CommandName.applyCorrections.grammar.Regular where
  names := List.nodup_nil
  shown := List.nodup_nil
  plain := by simp [CommandName.grammar]
  place := by simp [CommandName.grammar]
  text := by
    rintro place ⟨rfl⟩ argument h
    obtain ⟨word, hword, -⟩ := resultPlace_check_iff.mp h
    exact ⟨word, hword⟩

theorem accepts_nothing_iff {given : List Given} : ({} : Grammar).Accepts given ↔ given = [] := by
  constructor
  · intro h
    refine List.eq_nil_iff_forall_not_mem.mpr fun piece hpiece => ?_
    have hadmits := h.admits piece hpiece
    cases piece <;> simp [Grammar.Admits] at hadmits
  · rintro rfl
    exact ⟨by simp, List.nodup_nil⟩

theorem admits_start_iff {piece : Given} :
    CommandName.start.grammar.Admits piece ↔ StartTakes piece := by
  constructor
  · intro h
    cases piece with
    | flag name =>
      simp only [Grammar.Admits, CommandName.grammar, correct, continuous, allCavities,
        maxPhaseError, maxMomentumError, kickSamples, List.mem_cons, NamedArgument.mk.injEq,
        and_true, reduceCtorEq, and_false, false_or, List.not_mem_nil, or_false] at h
      rcases h with rfl | rfl | rfl
      · exact .correct
      · exact .continuous
      · exact .allCavities
    | option name value =>
      obtain ⟨shown, h⟩ := h
      simp only [CommandName.grammar, correct, continuous, allCavities, maxPhaseError,
        maxMomentumError, kickSamples, List.mem_cons, NamedArgument.mk.injEq, Option.some.injEq,
        reduceCtorEq, and_false, false_or, List.not_mem_nil, or_false] at h
      rcases h with ⟨rfl, -⟩ | ⟨rfl, -⟩ | ⟨rfl, -⟩
      · exact .maxPhaseError value
      · exact .maxMomentumError value
      · exact .kickSamples value
    | word word => exact .cavity word
  · intro h
    cases h with
    | cavity name =>
      refine ⟨cavityPlace, rfl, ?_⟩
      simp [cavityPlace, Argument.text?_eq_some_iff.mpr rfl]
    | maxPhaseError value => exact ⟨"DEGREES", by decide⟩
    | maxMomentumError value => exact ⟨"FRACTION", by decide⟩
    | kickSamples value => exact ⟨"COUNT", by decide⟩
    | correct | continuous | allCavities =>
      show _ ∈ _
      decide

theorem accepts_start_iff {given : List Given} :
    CommandName.start.grammar.Accepts given ↔
      (∀ piece ∈ given, StartTakes piece) ∧ (given.filterMap Given.name?).Nodup :=
  ⟨fun h => ⟨fun piece hpiece => admits_start_iff.mp (h.admits piece hpiece), h.once⟩,
    fun ⟨htakes, honce⟩ => ⟨fun piece hpiece => admits_start_iff.mpr (htakes piece hpiece), honce⟩⟩

/-- Pieces that are all words. -/
theorem exists_words {given : List Given} (h : ∀ piece ∈ given, ∃ word, piece = .word word) :
    ∃ words : List String, given = words.map .word := by
  induction given with
  | nil => exact ⟨[], rfl⟩
  | cons piece given ih =>
    obtain ⟨⟨word, rfl⟩, hrest⟩ := List.forall_mem_cons.mp h
    obtain ⟨words, rfl⟩ := ih hrest
    exact ⟨word :: words, rfl⟩

theorem admits_applyCorrections_iff {piece : Given} :
    CommandName.applyCorrections.grammar.Admits piece ↔
      ∃ word, piece = .word word ∧ ∃ id, ResultId.Typed word id := by
  constructor
  · intro h
    cases piece with
    | flag name => cases h
    | option name value =>
      obtain ⟨shown, h⟩ := h
      cases h
    | word word =>
      obtain ⟨place, ⟨rfl⟩, hcheck⟩ := h
      obtain ⟨other, hsame, htyped⟩ := resultPlace_check_iff.mp hcheck
      have htext := Argument.text?_eq_some_iff.mpr hsame
      rw [Argument.text?_eq_some_iff.mpr rfl] at htext
      exact ⟨other, congrArg _ (Option.some.inj htext), htyped⟩
  · rintro ⟨word, rfl, htyped⟩
    exact ⟨resultPlace, rfl, resultPlace_check_iff.mpr ⟨word, rfl, htyped⟩⟩

theorem accepts_applyCorrections_iff {given : List Given} :
    CommandName.applyCorrections.grammar.Accepts given ↔
      ∃ words : List String, given = words.map .word ∧
        ∀ word ∈ words, ∃ id, ResultId.Typed word id := by
  constructor
  · intro h
    have hadmits := fun piece hpiece => admits_applyCorrections_iff.mp (h.admits piece hpiece)
    obtain ⟨words, rfl⟩ := exists_words fun piece hpiece =>
      (hadmits piece hpiece).imp fun _ hword => hword.1
    refine ⟨words, rfl, fun word hword => ?_⟩
    obtain ⟨other, ⟨rfl⟩, htyped⟩ := hadmits _ (List.mem_map_of_mem hword)
    exact htyped
  · rintro ⟨words, rfl, htyped⟩
    refine ⟨fun piece hpiece => ?_, ?_⟩
    · obtain ⟨word, hword, rfl⟩ := List.mem_map.mp hpiece
      exact admits_applyCorrections_iff.mpr ⟨word, rfl, htyped word hword⟩
    · have hnames : (words.map Given.word).filterMap Given.name? = [] := by
        simp [List.filterMap_eq_nil_iff, Given.name?]
      rw [hnames]
      exact List.nodup_nil

/-! ## Starts -/

/-- The start that was read. -/
def startOf (read : ReadArguments) : StartArguments where
  correct := read.hasSeen correct.shown
  continuous := read.hasSeen continuous.shown
  maxPhaseError := read.valueOf maxPhaseError
  maxMomentumError := read.valueOf maxMomentumError
  kickSamples := read.valueOf kickSamples
  allCavities := read.hasSeen allCavities.shown
  cavities := read.placed.filterMap Argument.text?

/-- A start is read when its values are there, and cavities are not named beside asking for all. -/
theorem ofStart_eq_ok_iff {read : ReadArguments} {arguments : StartArguments} :
    ofStart read = .ok arguments ↔
      ¬ (read.hasSeen allCavities.shown = true ∧ read.hasSeen cavityPlace.shown = true) ∧
        (read.hasSeen maxPhaseError.shown = true ∧ read.hasSeen maxMomentumError.shown = true ∧
          read.hasSeen kickSamples.shown = true) ∧ startOf read = arguments := by
  unfold ofStart
  dsimp only
  by_cases hboth : read.hasSeen allCavities.shown = true ∧ read.hasSeen cavityPlace.shown = true
  · have hall : [allCavities.shown, cavityPlace.shown].all read.hasSeen = true := by
      simp [hboth.1, hboth.2]
    have hsome : (read.seen.find? [allCavities.shown, cavityPlace.shown].contains).isSome :=
      List.find?_isSome.mpr ⟨allCavities.shown, List.contains_iff_mem.mp hboth.1, by simp⟩
    obtain ⟨first, hfirst⟩ := Option.isSome_iff_exists.mp hsome
    rw [hall, hfirst]
    exact ⟨nofun, fun h => absurd hboth h.1⟩
  · have hall : [allCavities.shown, cavityPlace.shown].all read.hasSeen = false := by
      simpa using hboth
    have hvalues : [maxPhaseError, maxMomentumError, kickSamples].all (read.hasSeen ·.shown) =
        true ↔ read.hasSeen maxPhaseError.shown = true ∧
          read.hasSeen maxMomentumError.shown = true ∧ read.hasSeen kickSamples.shown = true := by
      simp
    rw [hall, ← hvalues]
    split
    next heq => cases heq
    next =>
      split
      next hthere => simp [hboth, hthere, startOf]
      next hmissing => simp [hmissing]

variable {given : List Given} {read : ReadArguments}

theorem filterMap_text?_of_tells {grammar : Grammar} (tells : grammar.Tells given read) :
    read.placed.filterMap Argument.text? = given.filterMap Given.word? := by
  have htext : Argument.text? ∘ Argument.ofText = some :=
    funext fun word => Argument.text?_eq_some_iff.mpr rfl
  rw [tells.placed, List.filterMap_map, htext, List.filterMap_some]

/-- What is known of a start from the arguments that were read for it. -/
structure ShowsStart (given : List Given) (read : ReadArguments) : Prop where
  correct : read.hasSeen correct.shown = true ↔ .flag "correct" ∈ given
  continuous : read.hasSeen continuous.shown = true ↔ .flag "continuous" ∈ given
  allCavities : read.hasSeen allCavities.shown = true ↔ .flag "all-cavities" ∈ given
  place : read.hasSeen cavityPlace.shown = true ↔ given.filterMap Given.word? ≠ []
  cavities : read.placed.filterMap Argument.text? = given.filterMap Given.word?
  seen : ∀ known ∈ [maxPhaseError, maxMomentumError, kickSamples],
    read.hasSeen known.shown = true ↔ ∃ value, .option known.name value ∈ given
  values : ∀ known ∈ [maxPhaseError, maxMomentumError, kickSamples], ∀ value,
    .option known.name value ∈ given → read.valueOf known = value

theorem showsStart_of_tells (accepts : CommandName.start.grammar.Accepts given)
    (tells : CommandName.start.grammar.Tells given read) : ShowsStart given read := by
  have hoptions : ∀ known ∈ [maxPhaseError, maxMomentumError, kickSamples],
      known ∈ CommandName.start.grammar.named ∧ known.valueName.isSome := by decide
  exact
    { correct := ReadArguments.hasSeen_flag_iff regular_start accepts tells (by decide)
      continuous := ReadArguments.hasSeen_flag_iff regular_start accepts tells (by decide)
      allCavities := ReadArguments.hasSeen_flag_iff regular_start accepts tells (by decide)
      place := ReadArguments.hasSeen_place_iff regular_start accepts tells rfl
      cavities := filterMap_text?_of_tells tells
      seen := fun known hknown => ReadArguments.hasSeen_option_iff regular_start accepts tells
        (hoptions known hknown).1 (hoptions known hknown).2
      values := fun known hknown _ hgiven => ReadArguments.valueOf_eq accepts tells
        (hoptions known hknown).1 (hoptions known hknown).2 hgiven }

/-- **The start that is read is the one that is asked for.** -/
theorem ofStart_eq_ok_iff_gives (accepts : CommandName.start.grammar.Accepts given)
    (tells : CommandName.start.grammar.Tells given read) {arguments : StartArguments} :
    ofStart read = .ok arguments ↔ StartGives given arguments := by
  have shows := showsStart_of_tells accepts tells
  have hphase := shows.values maxPhaseError (by simp)
  have hmomentum := shows.values maxMomentumError (by simp)
  have hsamples := shows.values kickSamples (by simp)
  rw [ofStart_eq_ok_iff, shows.seen maxPhaseError (by simp), shows.seen maxMomentumError (by simp),
    shows.seen kickSamples (by simp)]
  constructor
  · rintro ⟨hexclusive, ⟨⟨phase, hphaseGiven⟩, ⟨momentum, hmomentumGiven⟩, samples,
      hsamplesGiven⟩, rfl⟩
    refine ⟨shows.correct, shows.continuous, ?_, ?_, ?_, shows.allCavities, shows.cavities,
      fun hboth => ?_⟩
    · rwa [startOf, hphase phase hphaseGiven]
    · rwa [startOf, hmomentum momentum hmomentumGiven]
    · rwa [startOf, hsamples samples hsamplesGiven]
    · -- a cavity is named only where its place was seen
      by_contra hnamed
      rw [startOf, shows.cavities] at hnamed
      exact hexclusive ⟨hboth, shows.place.mpr hnamed⟩
  · intro h
    refine ⟨fun hboth => ?_, ⟨⟨_, h.maxPhaseError⟩, ⟨_, h.maxMomentumError⟩, _, h.kickSamples⟩, ?_⟩
    · refine shows.place.mp hboth.2 ?_
      rw [← h.cavities]
      exact h.exclusive (h.allCavities.mpr (shows.allCavities.mp hboth.1))
    · obtain ⟨hc, hn, hp, hm, hk, ha, hnames, -⟩ := h
      obtain ⟨⟩ := arguments
      simp only [startOf, StartArguments.mk.injEq]
      exact ⟨Bool.eq_iff_iff.mpr (shows.correct.trans hc.symm),
        Bool.eq_iff_iff.mpr (shows.continuous.trans hn.symm), hphase _ hp, hmomentum _ hm,
        hsamples _ hk, Bool.eq_iff_iff.mpr (shows.allCavities.trans ha.symm),
        shows.cavities.trans hnames.symm⟩

/-! ## Results -/

/-- Words that are identifiers are read as these. -/
theorem filterMap_read_of_typed {words : List String} {results : List ResultId}
    (h : List.Forall₂ ResultId.Typed words results) :
    words.filterMap (fun word => (ResultId.read word).toOption) = results := by
  induction h with
  | nil => rfl
  | cons hword _ ih =>
    rw [List.filterMap_cons, ResultId.read_eq_ok_iff.mpr hword]
    exact congrArg _ ih

theorem exists_typed_iff {words : List String} :
    (∃ results, List.Forall₂ ResultId.Typed words results) ↔
      ∀ word ∈ words, ∃ id, ResultId.Typed word id := by
  induction words with
  | nil => exact ⟨fun _ => List.forall_mem_nil _, fun _ => ⟨[], .nil⟩⟩
  | cons word words ih =>
    rw [List.forall_mem_cons, ← ih]
    constructor
    · rintro ⟨_, hresults⟩
      cases hresults with
      | cons hid hresults => exact ⟨⟨_, hid⟩, _, hresults⟩
    · rintro ⟨⟨id, hid⟩, results, hresults⟩
      exact ⟨id :: results, .cons hid hresults⟩

/-- **The results that are read are those that are asked for.** -/
theorem ofResults_eq_ok_iff {words : List String} {typed : List ResultId}
    (htyped : List.Forall₂ ResultId.Typed words typed)
    (tells : CommandName.applyCorrections.grammar.Tells (words.map .word) read)
    {results : List ResultId} :
    ofResults read = .ok results ↔ results = typed ∧ results ≠ [] := by
  have hread : read.placed.filterMap (fun argument =>
      argument.text?.bind fun text => (ResultId.read text).toOption) = typed := by
    rw [← List.filterMap_filterMap, filterMap_text?_of_tells tells, List.filterMap_map]
    refine Eq.trans ?_ (filterMap_read_of_typed htyped)
    exact congrArg _ List.filterMap_some
  rw [ofResults, hread]
  cases typed with
  | nil => exact ⟨nofun, fun ⟨hsame, hnone⟩ => absurd hsame hnone⟩
  | cons first others =>
    constructor
    · rintro ⟨rfl⟩
      exact ⟨rfl, List.cons_ne_nil _ _⟩
    · rintro ⟨rfl, -⟩
      rfl

/-! ## Commands -/

theorem ofText?_eq_some_iff {text : String} {name : CommandName} :
    CommandName.ofText? text = some name ↔ text = name.text := by
  constructor
  · intro h
    rw [CommandName.ofText?] at h
    exact (beq_iff_eq.mp (List.find?_some h :)).symm
  · rintro rfl
    cases name <;> rfl

theorem command?_eq_some_iff {argument : Argument} {name : CommandName} :
    command? argument = some name ↔ argument = .ofText name.text := by
  rw [command?, Option.bind_eq_some_iff, ← Argument.text?_eq_some_iff]
  simp only [ofText?_eq_some_iff, exists_eq_right]

variable {rest : List Argument} {request : Request}

/-- A command with what it is given. -/
theorem ofArguments_command (name : CommandName) (rest : List Argument) :
    ofArguments (.ofText name.text :: rest) =
      (ReadArguments.ofArguments name.grammar rest).mapError (stopAnswer name.help) >>= fun read =>
        (ofRead name read).mapError .error := by
  rw [ofArguments, command?_eq_some_iff.mpr rfl]

theorem ofArguments_command_eq_ok_iff (name : CommandName) :
    ofArguments (.ofText name.text :: rest) = .ok request ↔
      ∃ read, ReadArguments.ofArguments name.grammar rest = .ok read ∧
        ofRead name read = .ok request := by
  rw [ofArguments_command, bind_eq_ok_iff]
  simp only [mapError_eq_ok_iff]

theorem ofArguments_command_eq_help_iff (name : CommandName) :
    (∃ line, ofArguments (.ofText name.text :: rest) = .error (.help line)) ↔
      ReadArguments.ofArguments name.grammar rest = .error .help := by
  rw [ofArguments_command]
  cases ReadArguments.ofArguments name.grammar rest with
  | ok read =>
    refine ⟨?_, nofun⟩
    rintro ⟨line, h⟩
    obtain ⟨error, -, h⟩ := mapError_eq_error_iff.mp (h : (ofRead name read).mapError _ = _)
    cases h
  | error ending =>
    cases ending with
    | help => exact ⟨fun _ => rfl, fun _ => ⟨name.help, rfl⟩⟩
    | error error =>
      refine ⟨?_, nofun⟩
      rintro ⟨line, h⟩
      cases h

/-- A command that is given nothing knows no arguments, and is its request. -/
structure GivenNothing (name : CommandName) (asked : Request) : Prop where
  grammar : name.grammar = {}
  ofRead : ∀ read, ofRead name read = .ok asked

theorem exists_name_of_plain {word : String} {asked : Request} (h : Plain word asked) :
    ∃ name : CommandName, name.text = word ∧ GivenNothing name asked := by
  cases h with
  | version => exact ⟨.version, rfl, rfl, fun _ => rfl⟩
  | cavities => exact ⟨.cavities, rfl, rfl, fun _ => rfl⟩
  | pause => exact ⟨.pause, rfl, rfl, fun _ => rfl⟩
  | resume => exact ⟨.resume, rfl, rfl, fun _ => rfl⟩
  | stop => exact ⟨.stop, rfl, rfl, fun _ => rfl⟩
  | skip => exact ⟨.skip, rfl, rfl, fun _ => rfl⟩
  | watch => exact ⟨.watch, rfl, rfl, fun _ => rfl⟩

theorem name_cases (name : CommandName) :
    name = .start ∨ name = .applyCorrections ∨
      ∃ asked, Plain name.text asked ∧ GivenNothing name asked := by
  cases name with
  | start => exact .inl rfl
  | applyCorrections => exact .inr (.inl rfl)
  | version => exact .inr (.inr ⟨_, .version, rfl, fun _ => rfl⟩)
  | cavities => exact .inr (.inr ⟨_, .cavities, rfl, fun _ => rfl⟩)
  | pause => exact .inr (.inr ⟨_, .pause, rfl, fun _ => rfl⟩)
  | resume => exact .inr (.inr ⟨_, .resume, rfl, fun _ => rfl⟩)
  | stop => exact .inr (.inr ⟨_, .stop, rfl, fun _ => rfl⟩)
  | skip => exact .inr (.inr ⟨_, .skip, rfl, fun _ => rfl⟩)
  | watch => exact .inr (.inr ⟨_, .watch, rfl, fun _ => rfl⟩)

theorem ofArguments_plain_iff {name : CommandName} {asked : Request} (h : GivenNothing name asked) :
    ofArguments (.ofText name.text :: rest) = .ok request ↔
      SpellsAll rest [] ∧ asked = request := by
  rw [ofArguments_command_eq_ok_iff, h.grammar]
  constructor
  · rintro ⟨read, harguments, hread⟩
    obtain ⟨given, spells, accepts, -⟩ :=
      ReadArguments.spells_of_ofArguments regular_nothing harguments
    obtain rfl := accepts_nothing_iff.mp accepts
    exact ⟨spells, Except.ok.inj ((h.ofRead read).symm.trans hread)⟩
  · rintro ⟨spells, rfl⟩
    obtain ⟨read, harguments, -⟩ := ReadArguments.ofArguments_of_spells regular_nothing spells
      (accepts_nothing_iff.mpr rfl)
    exact ⟨read, harguments, h.ofRead read⟩

theorem ofArguments_start_iff :
    ofArguments (.ofText "start" :: rest) = .ok request ↔
      ∃ given arguments, SpellsAll rest given ∧ (∀ piece ∈ given, StartTakes piece) ∧
        (given.filterMap Given.name?).Nodup ∧ StartGives given arguments ∧
        .operate (.start arguments) = request := by
  refine (ofArguments_command_eq_ok_iff .start).trans ?_
  constructor
  · rintro ⟨read, harguments, h⟩
    obtain ⟨given, spells, accepts, tells⟩ :=
      ReadArguments.spells_of_ofArguments regular_start harguments
    obtain ⟨arguments, hstart, rfl⟩ := map_eq_ok_iff.mp h
    obtain ⟨takes, once⟩ := accepts_start_iff.mp accepts
    exact ⟨given, arguments, spells, takes, once,
      (ofStart_eq_ok_iff_gives accepts tells).mp hstart, rfl⟩
  · rintro ⟨given, arguments, spells, takes, once, gives, rfl⟩
    have accepts := accepts_start_iff.mpr ⟨takes, once⟩
    obtain ⟨read, harguments, tells⟩ :=
      ReadArguments.ofArguments_of_spells regular_start spells accepts
    have hstart := (ofStart_eq_ok_iff_gives accepts tells).mpr gives
    exact ⟨read, harguments, map_eq_ok_iff.mpr ⟨arguments, hstart, rfl⟩⟩

theorem ofArguments_applyCorrections_iff :
    ofArguments (.ofText "apply-corrections" :: rest) = .ok request ↔
      ∃ words results, SpellsAll rest (words.map .word) ∧
        List.Forall₂ ResultId.Typed words results ∧ results ≠ [] ∧
        .operate (.applyCorrections results) = request := by
  refine (ofArguments_command_eq_ok_iff .applyCorrections).trans ?_
  constructor
  · rintro ⟨read, harguments, h⟩
    obtain ⟨given, spells, accepts, tells⟩ :=
      ReadArguments.spells_of_ofArguments regular_applyCorrections harguments
    obtain ⟨words, rfl, hwords⟩ := accepts_applyCorrections_iff.mp accepts
    obtain ⟨typed, htyped⟩ := exists_typed_iff.mpr hwords
    obtain ⟨results, hresults, rfl⟩ := map_eq_ok_iff.mp h
    obtain ⟨rfl, hnonempty⟩ := (ofResults_eq_ok_iff htyped tells).mp hresults
    exact ⟨words, results, spells, htyped, hnonempty, rfl⟩
  · rintro ⟨words, results, spells, htyped, hnonempty, rfl⟩
    have hwords := exists_typed_iff.mp ⟨results, htyped⟩
    obtain ⟨read, harguments, tells⟩ := ReadArguments.ofArguments_of_spells
      regular_applyCorrections spells (accepts_applyCorrections_iff.mpr ⟨words, rfl, hwords⟩)
    have hresults := (ofResults_eq_ok_iff htyped tells).mpr ⟨rfl, hnonempty⟩
    exact ⟨read, harguments, map_eq_ok_iff.mpr ⟨results, hresults, rfl⟩⟩

/-- **What is read is what is asked for.** -/
theorem ofArguments_eq_ok_iff {arguments : List Argument} :
    ofArguments arguments = .ok request ↔ AskedBy arguments request := by
  constructor
  · intro h
    cases arguments with
    | nil => cases h
    | cons argument rest =>
      cases hcommand : command? argument with
      | none =>
        rw [ofArguments, hcommand] at h
        cases h
      | some name =>
        obtain rfl := command?_eq_some_iff.mp hcommand
        rcases name_cases name with rfl | rfl | ⟨asked, hplain, hnothing⟩
        · obtain ⟨given, arguments, spells, takes, once, gives, rfl⟩ := ofArguments_start_iff.mp h
          exact .start spells takes once gives
        · obtain ⟨words, results, spells, typed, nonempty, rfl⟩ :=
            ofArguments_applyCorrections_iff.mp h
          exact .applyCorrections spells typed nonempty
        · obtain ⟨spells, rfl⟩ := (ofArguments_plain_iff hnothing).mp h
          exact .plain hplain spells
  · intro h
    cases h with
    | start spells takes once gives =>
      exact ofArguments_start_iff.mpr ⟨_, _, spells, takes, once, gives, rfl⟩
    | applyCorrections spells typed nonempty =>
      exact ofArguments_applyCorrections_iff.mpr ⟨_, _, spells, typed, nonempty, rfl⟩
    | plain command nothing =>
      obtain ⟨name, rfl, hnothing⟩ := exists_name_of_plain command
      exact (ofArguments_plain_iff hnothing).mpr ⟨nothing, rfl⟩

/-! ## Help -/

theorem asksHelp_dashed {argument : Argument} (h : argument.AsksHelp) : argument.Dashed := by
  rcases h with rfl | ⟨rest, hbytes⟩
  · exact ⟨_, _, ReadArguments.bytes_named "help"⟩
  · exact ⟨_, _, hbytes⟩

/-- No command looks like a named argument. -/
theorem not_dashed_command (name : CommandName) : ¬ (Argument.ofText name.text).Dashed := by
  rintro ⟨next, rest, hbytes⟩
  have hfirst : (Argument.ofText name.text).bytes.head? ≠ some 45 := by
    cases name <;> simp [CommandName.text, Argument.bytes_ofText, Transport.bytesOf_eq,
      String.utf8EncodeChar]
  rw [hbytes] at hfirst
  exact hfirst rfl

theorem readOne_eq_help_iff {argument : Argument} :
    ReadArguments.readOne {} {} argument = .error .help ↔ argument.AsksHelp := by
  constructor
  · intro h
    have hread : ReadArguments.ofArguments {} [argument] = .error .help := by
      show ReadArguments.readRest {} {} [argument] = _
      rw [ReadArguments.readRest_cons, h]
      rfl
    obtain ⟨front, given, helper, back, hsplit, spells, accepts, asks⟩ :=
      (ReadArguments.ofArguments_eq_help_iff regular_nothing).mp hread
    obtain rfl := accepts_nothing_iff.mp accepts
    cases spells
    cases hsplit
    exact asks
  · intro h
    rw [ReadArguments.readOne_of_asksHelp rfl h]
    rfl

/-- In place of a command only asking for help is answered with help. -/
theorem headAnswer_eq_help_iff {argument : Argument} (rest : List Argument) :
    (∃ line, headAnswer argument rest = .help line) ↔ argument.AsksHelp := by
  constructor
  · rintro ⟨line, h⟩
    unfold headAnswer at h
    split at h
    next =>
      split at h
      next ending hending =>
        cases ending with
        | help => exact readOne_eq_help_iff.mp hending
        | error error => cases h
      next =>
        split at h
        next => cases h
        next => split at h <;> cases h
    next => cases h
  · intro h
    obtain ⟨next, more, hbytes⟩ := asksHelp_dashed h
    have hnamed : looksNamed argument = true := by
      rw [looksNamed, hbytes]
      rfl
    unfold headAnswer
    rw [if_pos hnamed, readOne_eq_help_iff.mpr h]
    exact ⟨_, rfl⟩

/-- A command that is given nothing is asked for help by what stands behind it first. -/
theorem ofArguments_plain_help_iff {name : CommandName} {asked : Request}
    (h : GivenNothing name asked) :
    (∃ line, ofArguments (.ofText name.text :: rest) = .error (.help line)) ↔
      ∃ helper more, rest = helper :: more ∧ helper.AsksHelp := by
  rw [ofArguments_command_eq_help_iff, h.grammar,
    ReadArguments.ofArguments_eq_help_iff regular_nothing]
  constructor
  · rintro ⟨front, given, helper, back, rfl, spells, accepts, asks⟩
    obtain rfl := accepts_nothing_iff.mp accepts
    cases spells
    exact ⟨helper, back, rfl, asks⟩
  · rintro ⟨helper, more, rfl, asks⟩
    exact ⟨[], [], helper, more, rfl, .nil, accepts_nothing_iff.mpr rfl, asks⟩

theorem ofArguments_start_help_iff :
    (∃ line, ofArguments (.ofText "start" :: rest) = .error (.help line)) ↔
      ∃ front given helper back, rest = front ++ helper :: back ∧ Spells front given ∧
        (∀ piece ∈ given, StartTakes piece) ∧ (given.filterMap Given.name?).Nodup ∧
        helper.AsksHelp := by
  refine (ofArguments_command_eq_help_iff .start).trans ?_
  simp only [ReadArguments.ofArguments_eq_help_iff regular_start, accepts_start_iff, and_assoc]

theorem ofArguments_applyCorrections_help_iff :
    (∃ line, ofArguments (.ofText "apply-corrections" :: rest) = .error (.help line)) ↔
      ∃ front, ∃ words : List String, ∃ helper back, rest = front ++ helper :: back ∧
        Spells front (words.map .word) ∧ (∀ word ∈ words, ∃ id, ResultId.Typed word id) ∧
        helper.AsksHelp := by
  refine (ofArguments_command_eq_help_iff .applyCorrections).trans ?_
  rw [ReadArguments.ofArguments_eq_help_iff regular_applyCorrections]
  constructor
  · rintro ⟨front, given, helper, back, rfl, spells, accepts, asks⟩
    obtain ⟨words, rfl, typed⟩ := accepts_applyCorrections_iff.mp accepts
    exact ⟨front, words, helper, back, rfl, spells, typed, asks⟩
  · rintro ⟨front, words, helper, back, rfl, spells, typed, asks⟩
    exact ⟨front, _, helper, back, rfl, spells,
      accepts_applyCorrections_iff.mpr ⟨words, rfl, typed⟩, asks⟩

/-- **Help is the answer to those that ask for it.** -/
theorem ofArguments_eq_help_iff {arguments : List Argument} :
    (∃ line, ofArguments arguments = .error (.help line)) ↔ AsksHelp arguments := by
  constructor
  · intro h
    cases arguments with
    | nil =>
      obtain ⟨line, h⟩ := h
      cases h
    | cons argument rest =>
      cases hcommand : command? argument with
      | none =>
        refine .program ((headAnswer_eq_help_iff rest).mp (h.imp fun line h => ?_))
        rw [ofArguments, hcommand] at h
        exact Except.error.inj h
      | some name =>
        obtain rfl := command?_eq_some_iff.mp hcommand
        rcases name_cases name with rfl | rfl | ⟨asked, hplain, hnothing⟩
        · obtain ⟨front, given, helper, back, rfl, spells, takes, once, asks⟩ :=
            ofArguments_start_help_iff.mp h
          exact .start spells takes once asks
        · obtain ⟨front, words, helper, back, rfl, spells, typed, asks⟩ :=
            ofArguments_applyCorrections_help_iff.mp h
          exact .applyCorrections spells typed asks
        · obtain ⟨helper, more, rfl, asks⟩ := (ofArguments_plain_help_iff hnothing).mp h
          exact .plain hplain asks
  · intro h
    cases h with
    | @program helper rest asks =>
      -- what asks for help names no command
      have hcommand : command? helper = none := by
        refine Option.eq_none_iff_forall_ne_some.mpr fun name hname => ?_
        rw [command?_eq_some_iff] at hname
        exact not_dashed_command name (hname ▸ asksHelp_dashed asks)
      rw [ofArguments, hcommand]
      exact ((headAnswer_eq_help_iff rest).mpr asks).imp fun _ => congrArg _
    | start spells takes once asks =>
      exact ofArguments_start_help_iff.mpr ⟨_, _, _, _, rfl, spells, takes, once, asks⟩
    | applyCorrections spells typed asks =>
      exact ofArguments_applyCorrections_help_iff.mpr ⟨_, _, _, _, rfl, spells, typed, asks⟩
    | plain command asks =>
      obtain ⟨name, rfl, hnothing⟩ := exists_name_of_plain command
      exact (ofArguments_plain_help_iff hnothing).mpr ⟨_, _, rfl, asks⟩

/-- **Everything else is an error of usage.** -/
theorem exists_usageError {arguments : List Argument}
    (unasked : ∀ request, ¬ AskedBy arguments request) (nohelp : ¬ AsksHelp arguments) :
    ∃ error, ofArguments arguments = .error (.error error) := by
  cases h : ofArguments arguments with
  | ok request => exact absurd (ofArguments_eq_ok_iff.mp h) (unasked request)
  | error answer =>
    cases answer with
    | help line => exact absurd (ofArguments_eq_help_iff.mp ⟨line, h⟩) nohelp
    | error error => exact ⟨error, rfl⟩

end Request

end CavityConsole

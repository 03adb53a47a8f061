import CavityConsole.Proofs.CommandLine.Spelling

/-!
# What is read and what is put off

The value of an option and the words are looked at only when the next named argument begins. So what
is read tells some pieces (`Grammar.Tells`), what is put off stands for the others, and together
they are the pieces so far (`Reaches`). Settling what is put off succeeds then (`Reaches.settle`),
and each kind of argument adds one piece.

A value that was put off may be wrong, or of an option that was there before. Then nothing that
follows can save the reading (`Doomed`), although the mistake is noticed only later.
-/

namespace CavityConsole

namespace Grammar

/-- A piece is shown so when it is noted. -/
def Shows (grammar : Grammar) : Given → String → Prop
  | .flag name, shown => shown = NamedArgument.shown ⟨name, none⟩
  | .option name _, shown =>
    ∃ value, ⟨name, some value⟩ ∈ grammar.named ∧ shown = NamedArgument.shown ⟨name, some value⟩
  | .word _, shown => ∃ place, grammar.placed = some place ∧ shown = place.shown

/-- What was read tells pieces. -/
structure Tells (grammar : Grammar) (given : List Given) (read : ReadArguments) : Prop where
  seen : ∀ shown, shown ∈ read.seen ↔ ∃ piece ∈ given, grammar.Shows piece shown
  values : ∀ known value, (known, value) ∈ read.values ↔
    known ∈ grammar.named ∧ known.valueName.isSome ∧ .option known.name value ∈ given
  placed : read.placed = (given.filterMap Given.word?).map .ofText

end Grammar

namespace ReadArguments

open Grammar

variable {grammar : Grammar} {given more : List Given} {read : ReadArguments}
  {argument : Argument}

/-- Whether something named was seen is whether it is among the pieces. -/
theorem hasSeen_iff (regular : grammar.Regular) (accepts : grammar.Accepts given)
    (tells : grammar.Tells given read) {known : NamedArgument} (hknown : known ∈ grammar.named) :
    read.hasSeen known.shown = true ↔ known.name ∈ given.filterMap Given.name? := by
  rw [hasSeen, List.contains_iff_mem, tells.seen, List.mem_filterMap]
  constructor
  · rintro ⟨piece, hpiece, hshows⟩
    have hadmits := accepts.admits piece hpiece
    refine ⟨piece, hpiece, ?_⟩
    cases piece with
    | flag name => rw [regular.eq_of_shown hknown hadmits hshows]; rfl
    | option name value =>
      obtain ⟨shown, hmem, hshows⟩ := hshows
      rw [regular.eq_of_shown hknown hmem hshows]
      rfl
    | word text =>
      -- a word is noted under the place, which is shown like nothing that is named
      obtain ⟨place, hplace, hshows⟩ := hshows
      refine absurd ?_ (regular.place place hplace)
      rw [← hshows]
      exact List.mem_map_of_mem hknown
  · rintro ⟨piece, hpiece, hname⟩
    have hadmits := accepts.admits piece hpiece
    refine ⟨piece, hpiece, ?_⟩
    cases piece with
    | flag name =>
      rw [regular.eq_of_name hknown hadmits (Option.some.inj hname).symm]
      rfl
    | option name value =>
      obtain ⟨shown, hmem⟩ := hadmits
      rw [regular.eq_of_name hknown hmem (Option.some.inj hname).symm]
      exact ⟨shown, hmem, rfl⟩
    | word text => cases hname

/-- A flag was seen when it is among the pieces. -/
theorem hasSeen_flag_iff (regular : grammar.Regular) (accepts : grammar.Accepts given)
    (tells : grammar.Tells given read) {name : String} (hname : ⟨name, none⟩ ∈ grammar.named) :
    read.hasSeen (NamedArgument.shown ⟨name, none⟩) = true ↔ .flag name ∈ given := by
  rw [hasSeen_iff regular accepts tells hname, List.mem_filterMap]
  constructor
  · rintro ⟨piece, hpiece, hpieceName⟩
    cases piece with
    | flag other =>
      obtain rfl : other = name := Option.some.inj hpieceName
      exact hpiece
    | option other value =>
      obtain rfl : other = name := Option.some.inj hpieceName
      obtain ⟨shown, hshown⟩ := accepts.admits _ hpiece
      cases regular.eq_of_name hshown hname rfl
    | word text => cases hpieceName
  · exact fun hflag => ⟨_, hflag, rfl⟩

/-- An option was seen when it is among the pieces with some value. -/
theorem hasSeen_option_iff (regular : grammar.Regular) (accepts : grammar.Accepts given)
    (tells : grammar.Tells given read) {known : NamedArgument} (hknown : known ∈ grammar.named)
    (hvalue : known.valueName.isSome) :
    read.hasSeen known.shown = true ↔ ∃ value, .option known.name value ∈ given := by
  rw [hasSeen_iff regular accepts tells hknown, List.mem_filterMap]
  constructor
  · rintro ⟨piece, hpiece, hname⟩
    cases piece with
    | flag name =>
      rw [← regular.eq_of_name (accepts.admits _ hpiece) hknown (Option.some.inj hname)] at hvalue
      cases hvalue
    | option name value =>
      obtain rfl : name = known.name := Option.some.inj hname
      exact ⟨value, hpiece⟩
    | word text => cases hname
  · exact fun ⟨value, hoption⟩ => ⟨_, hoption, rfl⟩

/-- The place was seen when a word is among the pieces. -/
theorem hasSeen_place_iff (regular : grammar.Regular) (accepts : grammar.Accepts given)
    (tells : grammar.Tells given read) {place : PlacedArguments}
    (hplace : grammar.placed = some place) :
    read.hasSeen place.shown = true ↔ given.filterMap Given.word? ≠ [] := by
  rw [hasSeen, List.contains_iff_mem, tells.seen, ← List.isEmpty_eq_false_iff,
    List.isEmpty_eq_false_iff_exists_mem]
  simp only [List.mem_filterMap]
  constructor
  · rintro ⟨piece, hpiece, hshows⟩
    have hadmits := accepts.admits piece hpiece
    have hplaceShown := regular.place place hplace
    cases piece with
    | flag name => exact absurd (hshows ▸ List.mem_map_of_mem hadmits) hplaceShown
    | option name value =>
      obtain ⟨shown, hmem, hshows⟩ := hshows
      exact absurd (hshows ▸ List.mem_map_of_mem hmem) hplaceShown
    | word text => exact ⟨text, _, hpiece, rfl⟩
  · rintro ⟨text, piece, hpiece, hword⟩
    cases piece with
    | word other => exact ⟨_, hpiece, place, hplace, rfl⟩
    | flag | option => cases hword

/-- The value that was read for an option is the one among the pieces. -/
theorem valueOf_eq (accepts : grammar.Accepts given) (tells : grammar.Tells given read)
    {known : NamedArgument} (hknown : known ∈ grammar.named) (hvalue : known.valueName.isSome)
    {value : String} (h : .option known.name value ∈ given) : read.valueOf known = value := by
  have hmem := (tells.values known value).mpr ⟨hknown, hvalue, h⟩
  cases hlookup : read.values.lookup known with
  | none =>
    have hnone := List.lookup_eq_none_iff.mp hlookup (known, value) hmem
    simp at hnone
  | some found =>
    obtain ⟨front, back, hsplit, -⟩ := List.lookup_eq_some_iff.mp hlookup
    have hfound := (tells.values known found).mp (hsplit ▸ by simp)
    have hsame := accepts.eq_of_name h hfound.2.2 rfl rfl
    rw [valueOf, hlookup, Option.getD_some]
    exact (Given.option.inj hsame).2.symm

/-! ## What pieces are told by -/

/-- What was read one after the other tells the pieces one after the other. -/
theorem tells_append {later next : ReadArguments} (tells : grammar.Tells given read)
    (tellsMore : grammar.Tells more later) (hseen : next.seen = read.seen ++ later.seen)
    (hvalues : next.values = read.values ++ later.values)
    (hplaced : next.placed = read.placed ++ later.placed) :
    grammar.Tells (given ++ more) next where
  seen shown := by
    rw [hseen, List.mem_append, tells.seen, tellsMore.seen]
    simp only [List.mem_append, or_and_right, exists_or]
  values known value := by
    rw [hvalues, List.mem_append, tells.values, tellsMore.values, List.mem_append]
    tauto
  placed := by
    rw [hplaced, tells.placed, tellsMore.placed, List.filterMap_append, List.map_append]

theorem tells_flag (name : String) :
    grammar.Tells [.flag name] { seen := [NamedArgument.shown ⟨name, none⟩] } where
  seen shown := by simp [Shows]
  values known value := by simp
  placed := rfl

theorem tells_option (regular : grammar.Regular) {known : NamedArgument}
    (hknown : known ∈ grammar.named) (hvalue : known.valueName.isSome) (value : String) :
    grammar.Tells [.option known.name value]
      { seen := [known.shown], values := [(known, value)] } where
  seen shown := by
    obtain ⟨name, valueName⟩ := known
    obtain ⟨valueName, rfl⟩ := Option.isSome_iff_exists.mp hvalue
    simp only [List.mem_singleton, exists_eq_left, Shows]
    constructor
    · rintro rfl
      exact ⟨valueName, hknown, rfl⟩
    · rintro ⟨other, hother, rfl⟩
      rw [regular.eq_of_name hother hknown rfl]
  values other text := by
    simp only [List.mem_singleton, Prod.mk.injEq, Given.option.injEq]
    constructor
    · rintro ⟨rfl, rfl⟩
      exact ⟨hknown, hvalue, rfl, rfl⟩
    · rintro ⟨hother, -, hname, rfl⟩
      exact ⟨regular.eq_of_name hother hknown hname, rfl⟩
  placed := rfl

theorem tells_words {place : PlacedArguments} (hplace : grammar.placed = some place)
    {words : List String} (hwords : words ≠ []) :
    grammar.Tells (words.map .word)
      { seen := [place.shown], placed := words.map .ofText } where
  seen shown := by
    simp only [List.mem_singleton, List.mem_map, exists_exists_and_eq_and, Shows, hplace,
      Option.some.injEq, exists_eq_left', exists_and_right]
    exact ⟨fun h => ⟨List.exists_mem_of_ne_nil _ hwords, h⟩, And.right⟩
  values known value := by simp
  placed := by
    have hself : (words.map Given.word).filterMap Given.word? = words := by
      rw [List.filterMap_map]
      exact List.filterMap_some
    rw [hself]

/-! ## What is put off -/

/-- What is put off tells nothing yet. -/
theorem tells_putOff (tells : grammar.Tells given read) (pending : PendingArgument) :
    grammar.Tells given { read with pending } :=
  ⟨tells.seen, tells.values, tells.placed⟩

/-- The pieces that are put off. -/
inductive PutsOff (grammar : Grammar) : PendingArgument → List Given → Prop where
  | nothing : PutsOff grammar .nothing []
  | option {known : NamedArgument} (hknown : known ∈ grammar.named)
    (hvalue : known.valueName.isSome) (value : String) :
    PutsOff grammar (.option known (some (.ofText value))) [.option known.name value]
  | placed {words : List String} (hwords : words ≠ []) :
    PutsOff grammar (.placed (words.map .ofText)) (words.map .word)

/-- What was read and what is put off are the pieces so far. -/
structure Reaches (grammar : Grammar) (given : List Given) (read : ReadArguments) : Prop where
  accepts : grammar.Accepts given
  parts : ∃ done late, given = done ++ late ∧ grammar.Tells done read ∧
    PutsOff grammar read.pending late

theorem reaches_nil (grammar : Grammar) : Reaches grammar [] {} where
  accepts := ⟨by simp, List.nodup_nil⟩
  parts := ⟨[], [], rfl, ⟨by simp, by simp, rfl⟩, .nothing⟩

/-- Pieces that are told with nothing put off. -/
structure Settled (grammar : Grammar) (given : List Given) (read : ReadArguments) : Prop where
  accepts : grammar.Accepts given
  tells : grammar.Tells given read
  pending : read.pending = .nothing

theorem takeValue_eq_ok (regular : grammar.Regular) (settled : Settled grammar given read)
    {known : NamedArgument} (hknown : known ∈ grammar.named) (hvalue : known.valueName.isSome)
    {value : String} (accepts : grammar.Accepts (given ++ [.option known.name value])) :
    ∃ next, read.takeValue known (.ofText value) = .ok next ∧ next.trailing = read.trailing ∧
      Settled grammar (given ++ [.option known.name value]) next := by
  have hunseen : read.hasSeen known.shown = false := by
    rw [← Bool.not_eq_true, hasSeen_iff regular settled.accepts settled.tells hknown]
    exact (accepts_concat_iff.mp accepts).2.2 known.name rfl
  have htext := Argument.text?_eq_some_iff.mpr (Eq.refl (Argument.ofText value))
  refine ⟨{ read.see known.shown with values := read.values ++ [(known, value)] }, ?_, rfl, accepts,
    ?_, settled.pending⟩
  · rw [takeValue, hunseen, htext]
    rfl
  · exact tells_append settled.tells (tells_option regular hknown hvalue value) rfl rfl
      (List.append_nil _).symm

/-- **What is put off is settled.** -/
theorem Reaches.settle (regular : grammar.Regular) (h : Reaches grammar given read) :
    ∃ settled, read.settle grammar = .ok settled ∧ settled.trailing = read.trailing ∧
      Settled grammar given settled := by
  obtain ⟨accepts, done, late, rfl, tells, putsOff⟩ := h
  have hread : Settled grammar done { read with pending := .nothing } :=
    ⟨accepts.left, tells_putOff tells .nothing, rfl⟩
  unfold ReadArguments.settle
  generalize read.pending = pending at putsOff
  -- what is put off decides what settling looks at
  cases putsOff with
  | nothing =>
    rw [List.append_nil]
    exact ⟨_, rfl, rfl, hread⟩
  | option hknown hvalue value => exact takeValue_eq_ok regular hread hknown hvalue accepts
  | placed hwords =>
    rename_i words
    obtain ⟨first, hfirst⟩ := List.exists_mem_of_ne_nil _ hwords
    obtain ⟨place, hplace, -⟩ := accepts.admits (.word first)
      (List.mem_append_right _ (List.mem_map_of_mem hfirst))
    have hfine : (words.map Argument.ofText).findSome? place.check = none := by
      rw [List.findSome?_eq_none_iff]
      rintro argument hargument
      obtain ⟨word, hword, rfl⟩ := List.mem_map.mp hargument
      obtain ⟨place', hplace', hcheck⟩ := accepts.admits (.word word)
        (List.mem_append_right _ (List.mem_map_of_mem hword))
      cases hplace.symm.trans hplace'
      exact hcheck
    simp only [hplace, hfine]
    refine ⟨_, rfl, rfl, accepts, ?_, rfl⟩
    exact tells_append hread.tells (tells_words hplace hwords) rfl (List.append_nil _).symm rfl

/-- Asking for help is answered when nothing that was put off is wrong. -/
theorem Reaches.askHelp (regular : grammar.Regular) (h : Reaches grammar given read) :
    read.askHelp grammar = .error .help := by
  obtain ⟨settled, hsettle, -⟩ := h.settle regular
  rw [ReadArguments.askHelp, hsettle]
  rfl

/-- No value is waited for once pieces are reached. -/
theorem Reaches.pending_ne (h : Reaches grammar given read) (known : NamedArgument) :
    read.pending ≠ .option known none := by
  obtain ⟨-, done, late, -, -, putsOff⟩ := h
  intro hpending
  rw [hpending] at putsOff
  cases putsOff

/-- So an argument that does not look like a named one stands by its place. -/
theorem Reaches.readOne_word (h : Reaches grammar given read) (hfront : read.trailing = false)
    (hplain : ¬ argument.Dashed) :
    readOne grammar read argument = read.readPlaced grammar argument := by
  rw [readOne_value hfront hplain, readOne.readValue]
  split
  next known hpending => exact absurd hpending (h.pending_ne known)
  next => rfl

theorem Reaches.dashes (h : Reaches grammar given read) :
    Reaches grammar given { read with trailing := true } := by
  obtain ⟨accepts, done, late, hsplit, tells, putsOff⟩ := h
  exact ⟨accepts, done, late, hsplit, ⟨tells.seen, tells.values, tells.placed⟩, putsOff⟩

/-! ## Words -/

theorem settle_placed {place : PlacedArguments} (hplace : grammar.placed = some place)
    {arguments : List Argument} (hpending : read.pending = .placed arguments) :
    Fails (read.settle grammar) ↔ ∃ argument ∈ arguments, place.check argument ≠ none := by
  rw [ReadArguments.settle, hpending]
  simp only [hplace]
  cases hcheck : arguments.findSome? place.check with
  | none =>
    refine ⟨fun ⟨_, h⟩ => (by cases h), fun ⟨argument, hmem, hwrong⟩ => ?_⟩
    exact absurd (List.findSome?_eq_none_iff.mp hcheck argument hmem) hwrong
  | some error =>
    obtain ⟨argument, hmem, hwrong⟩ := List.exists_of_findSome?_eq_some hcheck
    exact ⟨fun _ => ⟨argument, hmem, by rw [hwrong]; simp⟩, fun _ => ⟨error, rfl⟩⟩

theorem readPlaced_of_none (h : grammar.placed = none) (argument : Argument) :
    Fails (read.readPlaced grammar argument) := by
  rw [readPlaced, h]
  exact ⟨_, rfl⟩

/-- A word behind other words is put off with them. -/
theorem readPlaced_of_placed {place : PlacedArguments} (hplace : grammar.placed = some place)
    {before : List Argument} (hpending : read.pending = .placed before) (argument : Argument) :
    read.readPlaced grammar argument =
      .ok { read with pending := .placed (before ++ [argument]) } := by
  rw [readPlaced, hplace, hpending]
  rfl

/-- Otherwise what was put off is settled. -/
theorem readPlaced_of_other {place : PlacedArguments} (hplace : grammar.placed = some place)
    (hpending : ∀ before, read.pending ≠ .placed before) (argument : Argument) :
    read.readPlaced grammar argument =
      (read.settle grammar).map fun settled => { settled with pending := .placed [argument] } := by
  rw [readPlaced, hplace]
  cases hkind : read.pending with
  | placed before => exact absurd hkind (hpending before)
  | nothing | option => cases read.settle grammar <;> rfl

theorem takeValue_dashes (read : ReadArguments) (known : NamedArgument) (value : Argument) :
    ({ read with trailing := true } : ReadArguments).takeValue known value =
      (read.takeValue known value).map ({ · with trailing := true }) := by
  unfold takeValue
  show (if read.hasSeen known.shown = true then _ else _) = _
  split
  next => rfl
  next => cases value.text? <;> rfl

/-- Two dashes change nothing about what was put off. -/
theorem settle_dashes (grammar : Grammar) (read : ReadArguments) :
    ({ read with trailing := true } : ReadArguments).settle grammar =
      (read.settle grammar).map ({ · with trailing := true }) := by
  unfold ReadArguments.settle
  dsimp only
  cases read.pending with
  | nothing => rfl
  | option known value =>
    cases value with
    | none => rfl
    | some value => exact takeValue_dashes { read with pending := .nothing } known value
  | placed arguments =>
    cases grammar.placed with
    | none => rfl
    | some place =>
      dsimp only
      cases arguments.findSome? place.check <;> rfl

theorem fails_settle_dashes (h : Fails (read.settle grammar)) :
    Fails (({ read with trailing := true } : ReadArguments).settle grammar) := by
  obtain ⟨error, h⟩ := h
  rw [settle_dashes, h]
  exact ⟨error, rfl⟩

/-- Something that was put off is wrong, and no value for an option is waited for. -/
structure Doomed (grammar : Grammar) (read : ReadArguments) : Prop where
  fails : Fails (read.settle grammar)
  closed : read.trailing = false → ∀ known, read.pending ≠ .option known none

/-- **A word is put off** after what was put off before is settled or with it. -/
theorem Reaches.readPlaced (regular : grammar.Regular) (h : Reaches grammar given read)
    {word : String} (admits : grammar.Admits (.word word)) :
    ∃ next, read.readPlaced grammar (.ofText word) = .ok next ∧ next.trailing = read.trailing ∧
      Reaches grammar (given ++ [.word word]) next := by
  obtain ⟨place, hplace, -⟩ := id admits
  have haccepts : grammar.Accepts (given ++ [.word word]) :=
    accepts_concat_iff.mpr ⟨h.accepts, admits, nofun⟩
  by_cases hplaced : ∃ before, read.pending = .placed before
  · obtain ⟨before, hpending⟩ := hplaced
    obtain ⟨-, done, late, rfl, tells, putsOff⟩ := h
    rw [hpending] at putsOff
    cases putsOff with
    | placed hwords =>
      rename_i words
      refine ⟨_, readPlaced_of_placed hplace hpending _, rfl, haccepts, done,
        (words ++ [word]).map .word, ?_, tells_putOff tells _, ?_⟩
      · rw [List.map_append, ← List.append_assoc]
        rfl
      · rw [← List.map_singleton, ← List.map_append]
        exact .placed (by simp)
  · have hother : ∀ before, read.pending ≠ .placed before := fun before hpending =>
      hplaced ⟨before, hpending⟩
    obtain ⟨settled, hsettle, htrailing, hsettled⟩ := h.settle regular
    refine ⟨{ settled with pending := .placed [.ofText word] }, ?_, htrailing, haccepts, given,
      [.word word], rfl, tells_putOff hsettled.tells _, ?_⟩
    · rw [readPlaced_of_other hplace hother, hsettle]
      rfl
    · exact .placed (List.cons_ne_nil word [])

/-- An argument that is no word dooms the reading. -/
theorem Reaches.readPlaced_wrong (regular : grammar.Regular) (h : Reaches grammar given read)
    (hwrong : ∀ word, argument = .ofText word → ¬ grammar.Admits (.word word)) :
    Fails (read.readPlaced grammar argument) ∨
      ∃ next, read.readPlaced grammar argument = .ok next ∧ Doomed grammar next := by
  cases hplace : grammar.placed with
  | none => exact .inl (readPlaced_of_none hplace argument)
  | some place =>
    have hcheck : place.check argument ≠ none := by
      intro hnone
      obtain ⟨word, rfl⟩ := regular.text place hplace argument hnone
      exact hwrong word rfl ⟨place, hplace, hnone⟩
    have hdoomed : ∀ (next : ReadArguments) (before : List Argument),
        next.pending = .placed (before ++ [argument]) → Doomed grammar next := by
      intro next before hpending
      refine ⟨(settle_placed hplace hpending).mpr ⟨argument, by simp, hcheck⟩, fun _ known => ?_⟩
      rw [hpending]
      nofun
    by_cases hplaced : ∃ before, read.pending = .placed before
    · obtain ⟨before, hpending⟩ := hplaced
      exact .inr ⟨_, readPlaced_of_placed hplace hpending _, hdoomed _ before rfl⟩
    · have hother : ∀ before, read.pending ≠ .placed before := fun before hpending =>
        hplaced ⟨before, hpending⟩
      obtain ⟨settled, hsettle, -⟩ := h.settle regular
      refine .inr ⟨{ settled with pending := .placed [argument] }, ?_, hdoomed _ [] rfl⟩
      rw [readPlaced_of_other hplace hother, hsettle]
      rfl

/-! ## Doomed readings -/

theorem Doomed.readPlaced (h : Doomed grammar read) (argument : Argument) :
    Fails (read.readPlaced grammar argument) ∨
      ∃ next, read.readPlaced grammar argument = .ok next ∧ Doomed grammar next := by
  cases hplace : grammar.placed with
  | none => exact .inl (readPlaced_of_none hplace argument)
  | some place =>
    by_cases hplaced : ∃ before, read.pending = .placed before
    · obtain ⟨before, hpending⟩ := hplaced
      obtain ⟨wrong, hmem, hcheck⟩ := (settle_placed hplace hpending).mp h.fails
      refine .inr ⟨_, readPlaced_of_placed hplace hpending _, ?_, fun _ _ => nofun⟩
      exact (settle_placed hplace rfl).mpr ⟨wrong, List.mem_append_left _ hmem, hcheck⟩
    · have hother : ∀ before, read.pending ≠ .placed before := fun before hpending =>
        hplaced ⟨before, hpending⟩
      obtain ⟨error, hsettle⟩ := h.fails
      rw [readPlaced_of_other hplace hother, hsettle]
      exact .inl ⟨error, rfl⟩

section

variable (regular : grammar.Regular) (hfails : Fails (read.settle grammar))
include regular hfails

theorem fails_readNamed (argument : Argument) : Fails (read.readNamed grammar argument) := by
  rcases readNamed_cases regular argument with ⟨known, hknown, rfl⟩ | ⟨known, hknown, value, rfl⟩ |
    rfl | hwrong
  · rw [readNamed_known regular hknown]
    exact hfails.bind _
  · rw [readNamed_attached regular hknown]
    split
    next => exact hfails.bind _
    next => exact ⟨_, rfl⟩
  · rw [readNamed_help]
    exact hfails.bind _
  · exact hwrong read

/-- Nothing that looks like a named argument mends what was put off. -/
theorem readOne_of_unsettled (hfront : read.trailing = false) (hdashed : argument.Dashed) :
    Fails (readOne grammar read argument) ∨
      ∃ next, readOne grammar read argument = .ok next ∧ Doomed grammar next := by
  rcases argument_cases argument with hplain | rfl | ⟨rest, hrest, hbytes⟩ |
    ⟨letter, rest, hletter, hbytes⟩
  · exact absurd hdashed hplain
  · exact .inr ⟨_, readOne_dashes hfront, fails_settle_dashes hfails, nofun⟩
  · rw [readOne_named hfront hbytes hrest]
    exact .inl (fails_readNamed regular hfails ⟨rest⟩)
  · rw [readOne_letters hfront hbytes hletter]
    by_cases hhelp : letter = 104
    · subst hhelp
      rw [readLetters_help]
      exact .inl (hfails.bind _)
    · exact .inl (readLetters_other hhelp read rest)

end

theorem Doomed.readOne (regular : grammar.Regular) (h : Doomed grammar read)
    (argument : Argument) :
    Fails (readOne grammar read argument) ∨
      ∃ next, readOne grammar read argument = .ok next ∧ Doomed grammar next := by
  cases hfront : read.trailing with
  | true =>
    rw [ReadArguments.readOne, hfront]
    exact h.readPlaced argument
  | false =>
    by_cases hdashed : argument.Dashed
    · exact readOne_of_unsettled regular h.fails hfront hdashed
    · have hvalue : readOne.readValue grammar read argument = read.readPlaced grammar argument := by
        rw [readOne.readValue]
        split
        next known hpending => exact absurd hpending (h.closed hfront known)
        next => rfl
      rw [readOne_value hfront hdashed, hvalue]
      exact h.readPlaced argument
/-! ## Named arguments that are read -/

/-- An option waits for its value, and nothing is put off in front of it. -/
structure Awaits (grammar : Grammar) (given : List Given) (known : NamedArgument)
    (read : ReadArguments) : Prop where
  accepts : grammar.Accepts given
  tells : grammar.Tells given read
  mem : known ∈ grammar.named
  takesValue : known.valueName.isSome
  pending : read.pending = .option known none

section

variable (regular : grammar.Regular)
include regular

/-- A value that is no text, or one of an option that was there before, is not taken. -/
theorem takeValue_wrong (accepts : grammar.Accepts given) (tells : grammar.Tells given read)
    {known : NamedArgument} (hknown : known ∈ grammar.named) (hvalue : known.valueName.isSome)
    {value : Argument}
    (hwrong : ∀ text, value = .ofText text →
      ¬ grammar.Accepts (given ++ [.option known.name text])) :
    Fails (read.takeValue known value) := by
  rw [takeValue]
  split
  next => exact ⟨_, rfl⟩
  next hunseen =>
    cases htext : value.text? with
    | none => exact ⟨_, rfl⟩
    | some text =>
      rw [hasSeen_iff regular accepts tells hknown] at hunseen
      refine absurd (accepts_concat_iff.mpr ⟨accepts, ?_, fun name hname => ?_⟩)
        (hwrong text (Argument.text?_eq_some_iff.mp htext))
      · obtain ⟨shown, hshown⟩ := Option.isSome_iff_exists.mp hvalue
        exact ⟨shown, by rwa [← hshown]⟩
      · rwa [← Option.some.inj hname]

variable (h : Reaches grammar given read) (hfront : read.trailing = false)
include h hfront

theorem Reaches.flag {name : String} (accepts : grammar.Accepts (given ++ [.flag name])) :
    ∃ next, readOne grammar read (.ofText ("--" ++ name)) = .ok next ∧ next.trailing = false ∧
      Reaches grammar (given ++ [.flag name]) next := by
  obtain ⟨-, hknown, hnew⟩ := accepts_concat_iff.mp accepts
  obtain ⟨settled, hsettle, htrailing, hsettled⟩ := h.settle regular
  have hunseen : settled.hasSeen (NamedArgument.shown ⟨name, none⟩) = false := by
    rw [← Bool.not_eq_true, hasSeen_iff regular hsettled.accepts hsettled.tells hknown]
    exact hnew name rfl
  refine ⟨settled.see (NamedArgument.shown ⟨name, none⟩), ?_, htrailing.trans hfront, accepts,
    given ++ [.flag name], [], (List.append_nil _).symm,
    tells_append hsettled.tells (tells_flag name) rfl (List.append_nil _).symm
      (List.append_nil _).symm, ?_⟩
  · rw [readOne_known regular hfront hknown, hsettle]
    show named ⟨name, none⟩ settled = _
    rw [named, hunseen]
    rfl
  · rw [see, hsettled.pending]
    exact .nothing

theorem Reaches.flag_again {known : NamedArgument} (hknown : known ∈ grammar.named)
    (hnone : known.valueName = none) (hagain : known.name ∈ given.filterMap Given.name?) :
    Fails (readOne grammar read (.ofText ("--" ++ known.name))) := by
  obtain ⟨settled, hsettle, -, hsettled⟩ := h.settle regular
  have hseen := (hasSeen_iff regular hsettled.accepts hsettled.tells hknown).mpr hagain
  rw [readOne_known regular hfront hknown, hsettle]
  show Fails (named known settled)
  rw [named, hnone, hseen]
  exact ⟨_, rfl⟩

theorem Reaches.option {known : NamedArgument} (hknown : known ∈ grammar.named)
    (hvalue : known.valueName.isSome) :
    ∃ next, readOne grammar read (.ofText ("--" ++ known.name)) = .ok next ∧
      next.trailing = false ∧ Awaits grammar given known next := by
  obtain ⟨settled, hsettle, htrailing, hsettled⟩ := h.settle regular
  refine ⟨{ settled with pending := .option known none }, ?_, htrailing.trans hfront,
    hsettled.accepts, tells_putOff hsettled.tells _, hknown, hvalue, rfl⟩
  rw [readOne_known regular hfront hknown, hsettle]
  show named known settled = _
  rw [named, hvalue]
  rfl

theorem Reaches.attached {known : NamedArgument} (hknown : known ∈ grammar.named)
    (hvalue : known.valueName.isSome) {value : String}
    (accepts : grammar.Accepts (given ++ [.option known.name value])) :
    ∃ next, readOne grammar read (.ofText ("--" ++ known.name ++ "=" ++ value)) = .ok next ∧
      next.trailing = false ∧ Reaches grammar (given ++ [.option known.name value]) next := by
  obtain ⟨settled, hsettle, htrailing, hsettled⟩ := h.settle regular
  obtain ⟨next, hnext, hnextFront, htaken⟩ := takeValue_eq_ok regular hsettled hknown hvalue accepts
  refine ⟨next, ?_, hnextFront.trans (htrailing.trans hfront), accepts, _, [],
    (List.append_nil _).symm, htaken.tells, ?_⟩
  · rw [readOne_attached regular hfront hknown, if_pos hvalue, hsettle]
    exact hnext
  · rw [htaken.pending]
    exact .nothing

end

/-- The next argument is the value of an option that waits for it. -/
theorem Awaits.readOne {known : NamedArgument} (h : Awaits grammar given known read)
    (hfront : read.trailing = false) (hplain : ¬ argument.Dashed) :
    readOne grammar read argument =
      .ok { read with pending := .option known (some argument) } := by
  rw [readOne_value hfront hplain, readOne.readValue, h.pending]

theorem Awaits.reaches {known : NamedArgument} (h : Awaits grammar given known read)
    {value : String} (accepts : grammar.Accepts (given ++ [.option known.name value])) :
    Reaches grammar (given ++ [.option known.name value])
      { read with pending := .option known (some (.ofText value)) } where
  accepts := accepts
  parts := ⟨given, _, rfl, tells_putOff h.tells _, .option h.mem h.takesValue value⟩

theorem Awaits.doomed (regular : grammar.Regular) {known : NamedArgument}
    (h : Awaits grammar given known read)
    (hwrong : ∀ text, argument = .ofText text →
      ¬ grammar.Accepts (given ++ [.option known.name text])) :
    Doomed grammar { read with pending := .option known (some argument) } where
  fails := takeValue_wrong regular h.accepts (tells_putOff h.tells .nothing) h.mem h.takesValue
    hwrong
  closed _ _ := by simp

/-- Without its value an option cannot be settled. -/
theorem Awaits.fails {known : NamedArgument} (h : Awaits grammar given known read) :
    Fails (read.settle grammar) := by
  rw [ReadArguments.settle, h.pending]
  exact ⟨_, rfl⟩
end ReadArguments

end CavityConsole

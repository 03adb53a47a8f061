import CavityConsole.Proofs.CommandLine.Pending

/-!
# Which arguments a grammar reads

**The law** (`ReadArguments.spells_of_ofArguments`, `ReadArguments.ofArguments_of_spells`):
arguments are read exactly when they spell pieces that the grammar accepts, and what is read tells
these pieces. They are answered with help exactly when such pieces stand in front of an argument
that asks for it (`ReadArguments.ofArguments_eq_help_iff`); in every other case something is wrong.

One direction is an induction on the arguments, from the pieces that were reached to all that
reading can come to (`Comes`). An option whose value may be the next argument is carried along. The
other direction is an induction on how the pieces are spelled (`exists_reaches`).
-/

namespace CavityConsole.ReadArguments

open Grammar

variable {grammar : Grammar} {given more : List Given} {piece : Given} {read : ReadArguments}
  {argument : Argument}

/-- Reads the arguments that are left, and settles. -/
def readRest (grammar : Grammar) (read : ReadArguments) (arguments : List Argument) :
    Except UsageStop ReadArguments := arguments.foldlM (readOne grammar) read >>= settle grammar

theorem readRest_nil (grammar : Grammar) (read : ReadArguments) :
    readRest grammar read [] = read.settle grammar := rfl

theorem readRest_cons (grammar : Grammar) (read : ReadArguments) (argument : Argument)
    (arguments : List Argument) :
    readRest grammar read (argument :: arguments) =
      readOne grammar read argument >>= (readRest grammar · arguments) := by
  rw [readRest, List.foldlM_cons]
  cases readOne grammar read argument <;> rfl

theorem readRest_of_ok {next : ReadArguments} (h : readOne grammar read argument = .ok next)
    (arguments : List Argument) :
    readRest grammar read (argument :: arguments) = readRest grammar next arguments := by
  rw [readRest_cons, h]
  rfl

theorem readRest_of_fails (h : Fails (readOne grammar read argument)) (arguments : List Argument) :
    Fails (readRest grammar read (argument :: arguments)) := by
  rw [readRest_cons]
  exact h.bind _

/-- **A doomed reading fails.** -/
theorem Doomed.readRest (regular : grammar.Regular) (h : Doomed grammar read)
    (arguments : List Argument) : Fails (readRest grammar read arguments) := by
  induction arguments generalizing read with
  | nil => exact h.fails
  | cons argument arguments ih =>
    rcases h.readOne regular argument with hfails | ⟨next, hnext, hdoomed⟩
    · exact readRest_of_fails hfails arguments
    · rw [readRest_of_ok hnext]
      exact ih hdoomed
/-! ## All arguments -/

/-- What reading the arguments that are left comes to behind some pieces. -/
inductive Comes (grammar : Grammar) (given : List Given) :
    List Argument → Except UsageStop ReadArguments → Prop where
  | read {arguments : List Argument} {more : List Given} {read : ReadArguments}
    (spells : SpellsAll arguments more) (accepts : grammar.Accepts (given ++ more))
    (tells : grammar.Tells (given ++ more) read) : Comes grammar given arguments (.ok read)
  | help {front back : List Argument} {helper : Argument} {more : List Given}
    (spells : Spells front more) (accepts : grammar.Accepts (given ++ more))
    (asks : helper.AsksHelp) : Comes grammar given (front ++ helper :: back) (.error .help)
  | wrong {arguments : List Argument} (error : UsageError) :
    Comes grammar given arguments (.error (.error error))

theorem Fails.comes {result : Except UsageStop ReadArguments} (h : Fails result)
    (arguments : List Argument) : Comes grammar given arguments result := by
  obtain ⟨error, rfl⟩ := h
  exact .wrong error

/-- One more piece in front. -/
theorem Comes.cons (front : List Argument) {rest : List Argument}
    {result : Except UsageStop ReadArguments} (h : Comes grammar (given ++ [piece]) rest result)
    (spells : ∀ {rest more}, Spells rest more → Spells (front ++ rest) (piece :: more)) :
    Comes grammar given (front ++ rest) result := by
  cases h with
  | read spellsMore accepts tells =>
    rw [List.append_assoc, List.singleton_append] at accepts tells
    refine .read ?_ accepts tells
    cases spellsMore with
    | plain h => exact .plain (spells h)
    | dashes h words =>
      rw [← List.append_assoc]
      exact .dashes (spells h) words
  | help spellsMore accepts asks =>
    rw [List.append_assoc, List.singleton_append] at accepts
    rw [← List.append_assoc]
    exact .help (spells spellsMore) accepts asks
  | wrong error => exact .wrong error

section

variable (regular : grammar.Regular)
include regular

/-- Behind two dashes everything has to be a word. -/
theorem comes_trailing (h : Reaches grammar given read) (hback : read.trailing = true)
    (arguments : List Argument) :
    Fails (readRest grammar read arguments) ∨
      ∃ (words : List String) (final : ReadArguments), arguments = words.map .ofText ∧
        readRest grammar read arguments = .ok final ∧
        grammar.Accepts (given ++ words.map .word) ∧
        grammar.Tells (given ++ words.map .word) final := by
  induction arguments generalizing given read with
  | nil =>
    obtain ⟨settled, hsettle, -, hsettled⟩ := h.settle regular
    refine .inr ⟨[], settled, rfl, hsettle, ?_⟩
    rw [List.map_nil, List.append_nil]
    exact ⟨hsettled.accepts, hsettled.tells⟩
  | cons argument arguments ih =>
    have hone : readOne grammar read argument = read.readPlaced grammar argument := by
      rw [readOne, hback, if_pos rfl]
    by_cases hword : ∃ word, argument = .ofText word ∧ grammar.Admits (.word word)
    · obtain ⟨word, rfl, hadmits⟩ := hword
      obtain ⟨next, hnext, hnextBack, hreaches⟩ := h.readPlaced regular hadmits
      rw [readRest_of_ok (hone.trans hnext)]
      rcases ih hreaches (hnextBack.trans hback) with hfails | ⟨words, final, rfl, hread, hmore⟩
      · exact .inl hfails
      · rw [List.append_assoc, List.singleton_append] at hmore
        exact .inr ⟨word :: words, final, rfl, hread, hmore⟩
    · have hwrong : ∀ word, argument = .ofText word → ¬ grammar.Admits (.word word) :=
        fun word heq hadmits => hword ⟨word, heq, hadmits⟩
      rcases h.readPlaced_wrong regular hwrong with hfails | ⟨next, hnext, hdoomed⟩
      · exact .inl (readRest_of_fails (hone ▸ hfails) arguments)
      · rw [readRest_of_ok (hone.trans hnext)]
        exact .inl (hdoomed.readRest regular arguments)

/-- What reading arguments comes to behind pieces, and behind an option that waits for its value. -/
structure Understood (grammar : Grammar) (arguments : List Argument) : Prop where
  reached : ∀ {given read}, Reaches grammar given read → read.trailing = false →
    Comes grammar given arguments (readRest grammar read arguments)
  awaited : ∀ {given read known}, Awaits grammar given known read → read.trailing = false →
    Fails (readRest grammar read arguments) ∨
      ∃ value rest, arguments = .ofText value :: rest ∧ ¬ (Argument.ofText value).Dashed ∧
        Comes grammar (given ++ [.option known.name value]) rest (readRest grammar read arguments)

variable {arguments : List Argument} (ih : Understood grammar arguments)
include ih

theorem comes_word (h : Reaches grammar given read) (hfront : read.trailing = false)
    (hplain : ¬ argument.Dashed) :
    Comes grammar given (argument :: arguments)
      (readRest grammar read (argument :: arguments)) := by
  have hone := h.readOne_word hfront hplain
  by_cases hword : ∃ word, argument = .ofText word ∧ grammar.Admits (.word word)
  · obtain ⟨word, rfl, hadmits⟩ := hword
    obtain ⟨next, hnext, hnextFront, hreaches⟩ := h.readPlaced regular hadmits
    rw [readRest_of_ok (hone.trans hnext)]
    exact (ih.reached hreaches (hnextFront.trans hfront)).cons [.ofText word] (.word hplain)
  · have hwrong : ∀ word, argument = .ofText word → ¬ grammar.Admits (.word word) :=
      fun word heq hadmits => hword ⟨word, heq, hadmits⟩
    rcases h.readPlaced_wrong regular hwrong with hfails | ⟨next, hnext, hdoomed⟩
    · exact (readRest_of_fails (hone ▸ hfails) arguments).comes _
    · rw [readRest_of_ok (hone.trans hnext)]
      exact (hdoomed.readRest regular arguments).comes _

/-- A flag, or an option that is followed by its value. -/
theorem comes_known (h : Reaches grammar given read) (hfront : read.trailing = false)
    {known : NamedArgument} (hknown : known ∈ grammar.named) :
    Comes grammar given (.ofText ("--" ++ known.name) :: arguments)
      (readRest grammar read (.ofText ("--" ++ known.name) :: arguments)) := by
  cases hvalue : known.valueName with
  | none =>
    by_cases hagain : known.name ∈ given.filterMap Given.name?
    · exact (readRest_of_fails (h.flag_again regular hfront hknown hvalue hagain) arguments).comes _
    · have haccepts : grammar.Accepts (given ++ [.flag known.name]) := by
        refine accepts_concat_iff.mpr ⟨h.accepts, ?_, fun name hname => ?_⟩
        · show (⟨known.name, none⟩ : NamedArgument) ∈ grammar.named
          rwa [← hvalue]
        · rwa [← Option.some.inj hname]
      obtain ⟨next, hnext, hnextFront, hreaches⟩ := h.flag regular hfront haccepts
      rw [readRest_of_ok hnext]
      exact (ih.reached hreaches hnextFront).cons [_] .flag
  | some shown =>
    have htakes : known.valueName.isSome = true := by rw [hvalue]; rfl
    obtain ⟨next, hnext, hnextFront, hawaits⟩ := h.option regular hfront hknown htakes
    rw [readRest_of_ok hnext]
    rcases ih.awaited hawaits hnextFront with hfails | ⟨value, rest, rfl, hplain, hcomes⟩
    · exact hfails.comes _
    · exact hcomes.cons [_, _] (.followed hplain)

/-- An option with its value behind an equals sign. -/
theorem comes_attached (h : Reaches grammar given read) (hfront : read.trailing = false)
    {known : NamedArgument} (hknown : known ∈ grammar.named) {value : Argument}
    (hbytes : argument.bytes = 45 :: 45 ::
      ((Argument.ofText known.name).bytes ++ Argument.equalsSign :: value.bytes)) :
    Comes grammar given (argument :: arguments)
      (readRest grammar read (argument :: arguments)) := by
  have hone : readOne grammar read argument = _ := readOne_named hfront hbytes (by simp)
  rw [readNamed_attached regular hknown] at hone
  by_cases hvalue : known.valueName.isSome = true
  · rw [if_pos hvalue] at hone
    by_cases htext : ∃ text, value = .ofText text ∧
        grammar.Accepts (given ++ [.option known.name text])
    · obtain ⟨text, rfl, haccepts⟩ := htext
      obtain rfl : argument = .ofText ("--" ++ known.name ++ "=" ++ text) :=
        congrArg Argument.mk (hbytes.trans (bytes_attached known.name text).symm)
      obtain ⟨next, hnext, hnextFront, hreaches⟩ := h.attached regular hfront hknown hvalue haccepts
      rw [readRest_of_ok hnext]
      exact (ih.reached hreaches hnextFront).cons [_] .attached
    · obtain ⟨settled, hsettle, -, hsettled⟩ := h.settle regular
      have hfails := takeValue_wrong regular hsettled.accepts hsettled.tells hknown hvalue
        fun text heq haccepts => htext ⟨text, heq, haccepts⟩
      rw [hsettle] at hone
      exact (readRest_of_fails (hone ▸ hfails) arguments).comes _
  · rw [if_neg hvalue] at hone
    exact (readRest_of_fails ⟨_, hone⟩ arguments).comes _

end

/-- Help is asked for. -/
theorem comes_help (regular : grammar.Regular) (h : Reaches grammar given read)
    (hfront : read.trailing = false) (hasks : argument.AsksHelp) (arguments : List Argument) :
    Comes grammar given (argument :: arguments)
      (readRest grammar read (argument :: arguments)) := by
  rw [readRest_cons, readOne_of_asksHelp hfront hasks, h.askHelp regular]
  refine .help .nil ?_ hasks
  rw [List.append_nil]
  exact h.accepts

/-- An argument that looks like a named one. -/
theorem comes_dashed (regular : grammar.Regular) {arguments : List Argument}
    (ih : Understood grammar arguments) (h : Reaches grammar given read)
    (hfront : read.trailing = false) (hdashed : argument.Dashed) :
    Comes grammar given (argument :: arguments)
      (readRest grammar read (argument :: arguments)) := by
  rcases argument_cases argument with hplain | rfl | ⟨rest, hrest, hbytes⟩ |
    ⟨letter, rest, hletter, hbytes⟩
  · exact absurd hdashed hplain
  · -- behind two dashes nothing is named any more
    rw [readRest_of_ok (readOne_dashes hfront)]
    rcases comes_trailing regular h.dashes rfl arguments with hfails |
      ⟨words, final, rfl, hread, haccepts, htells⟩
    · exact hfails.comes _
    · rw [hread]
      exact .read (.dashes .nil words) haccepts htells
  · have hone : readOne grammar read argument = _ := readOne_named hfront hbytes hrest
    have hsame {name : Argument} (hname : (⟨rest⟩ : Argument) = name) :
        argument.bytes = 45 :: 45 :: name.bytes := by rw [hbytes, ← hname]
    rcases readNamed_cases regular ⟨rest⟩ with ⟨known, hknown, hname⟩ |
      ⟨known, hknown, value, hname⟩ | hname | hwrong
    · obtain rfl : argument = .ofText ("--" ++ known.name) :=
        congrArg Argument.mk ((hsame hname).trans (bytes_named known.name).symm)
      exact comes_known regular ih h hfront hknown
    · exact comes_attached regular ih h hfront hknown (hsame hname)
    · have hhelp : argument = .ofText "--help" :=
        congrArg Argument.mk ((hsame hname).trans (bytes_named "help").symm)
      exact comes_help regular h hfront (.inl hhelp) arguments
    · exact (readRest_of_fails (hone ▸ hwrong read) arguments).comes _
  · by_cases hhelp : letter = 104
    · subst hhelp
      exact comes_help regular h hfront (.inr ⟨rest, hbytes⟩) arguments
    · have hone : readOne grammar read argument = _ := readOne_letters hfront hbytes hletter
      exact (readRest_of_fails (hone ▸ readLetters_other hhelp read rest) arguments).comes _

/-- **What reading comes to**, for all arguments. -/
theorem understood (regular : grammar.Regular) (arguments : List Argument) :
    Understood grammar arguments := by
  induction arguments with
  | nil =>
    refine ⟨fun h hfront => ?_, fun h _ => .inl h.fails⟩
    obtain ⟨settled, hsettle, -, hsettled⟩ := h.settle regular
    rw [readRest_nil, hsettle]
    refine .read (.plain .nil) ?_ ?_
    · rw [List.append_nil]
      exact hsettled.accepts
    · rw [List.append_nil]
      exact hsettled.tells
  | cons argument arguments ih =>
    -- pieces are reached, or an option waits for its value; each of the two may follow the other
    refine ⟨fun h hfront => ?_, fun {given read known} h hfront => ?_⟩
    · by_cases hdashed : argument.Dashed
      · exact comes_dashed regular ih h hfront hdashed
      · exact comes_word regular ih h hfront hdashed
    by_cases hdashed : argument.Dashed
    · rcases readOne_of_unsettled regular h.fails hfront hdashed with hfails |
        ⟨next, hnext, hdoomed⟩
      · exact .inl (readRest_of_fails hfails arguments)
      · rw [readRest_of_ok hnext]
        exact .inl (hdoomed.readRest regular arguments)
    · rw [readRest_of_ok (h.readOne hfront hdashed)]
      by_cases hvalue : ∃ value, argument = .ofText value ∧
          grammar.Accepts (given ++ [.option known.name value])
      · obtain ⟨value, rfl, haccepts⟩ := hvalue
        exact .inr ⟨value, arguments, rfl, hdashed, ih.reached (h.reaches haccepts) hfront⟩
      · have hdoomed := h.doomed regular fun text heq haccepts => hvalue ⟨text, heq, haccepts⟩
        exact .inl (hdoomed.readRest regular arguments)

/-! ## Pieces that are accepted are read -/

section

variable (regular : grammar.Regular)
include regular

/-- **What is spelled is read**, whatever stands behind it. -/
theorem exists_reaches {front : List Argument} (spells : Spells front more)
    (h : Reaches grammar given read) (hfront : read.trailing = false)
    (accepts : grammar.Accepts (given ++ more)) :
    ∃ next, Reaches grammar (given ++ more) next ∧ next.trailing = false ∧
      ∀ back, readRest grammar read (front ++ back) = readRest grammar next back := by
  induction spells generalizing given read with
  | nil =>
    rw [List.append_nil]
    exact ⟨read, h, hfront, fun _ => rfl⟩
  | flag _ ih =>
    rw [List.append_cons] at accepts ⊢
    obtain ⟨next, hnext, hnextFront, hreaches⟩ := h.flag regular hfront accepts.left
    obtain ⟨final, hfinal, hfinalFront, hrest⟩ := ih hreaches hnextFront accepts
    exact ⟨final, hfinal, hfinalFront, fun back => (readRest_of_ok hnext _).trans (hrest back)⟩
  | attached _ ih =>
    rw [List.append_cons] at accepts ⊢
    obtain ⟨-, ⟨shown, hknown⟩, -⟩ := accepts_concat_iff.mp accepts.left
    obtain ⟨next, hnext, hnextFront, hreaches⟩ := h.attached regular hfront hknown rfl accepts.left
    obtain ⟨final, hfinal, hfinalFront, hrest⟩ := ih hreaches hnextFront accepts
    exact ⟨final, hfinal, hfinalFront, fun back => (readRest_of_ok hnext _).trans (hrest back)⟩
  | followed hplain _ ih =>
    rw [List.append_cons] at accepts ⊢
    obtain ⟨-, ⟨shown, hknown⟩, -⟩ := accepts_concat_iff.mp accepts.left
    obtain ⟨next, hnext, hnextFront, hawaits⟩ := h.option regular hfront hknown rfl
    obtain ⟨final, hfinal, hfinalFront, hrest⟩ :=
      ih (hawaits.reaches accepts.left) hnextFront accepts
    refine ⟨final, hfinal, hfinalFront, fun back => (readRest_of_ok hnext _).trans ?_⟩
    exact (readRest_of_ok (hawaits.readOne hnextFront hplain) _).trans (hrest back)
  | word hplain _ ih =>
    rw [List.append_cons] at accepts ⊢
    obtain ⟨-, hadmits, -⟩ := accepts_concat_iff.mp accepts.left
    obtain ⟨next, hnext, hnextFront, hreaches⟩ := h.readPlaced regular hadmits
    obtain ⟨final, hfinal, hfinalFront, hrest⟩ :=
      ih hreaches (hnextFront.trans hfront) accepts
    have hone := (h.readOne_word hfront hplain).trans hnext
    exact ⟨final, hfinal, hfinalFront, fun back => (readRest_of_ok hone _).trans (hrest back)⟩

/-- Words behind two dashes are read. -/
theorem exists_tells_trailing {words : List String} (h : Reaches grammar given read)
    (hback : read.trailing = true) (accepts : grammar.Accepts (given ++ words.map .word)) :
    ∃ final, readRest grammar read (words.map .ofText) = .ok final ∧
      grammar.Tells (given ++ words.map .word) final := by
  induction words generalizing given read with
  | nil =>
    obtain ⟨settled, hsettle, -, hsettled⟩ := h.settle regular
    rw [List.map_nil, List.map_nil, List.append_nil]
    exact ⟨settled, hsettle, hsettled.tells⟩
  | cons word words ih =>
    rw [List.map_cons, List.append_cons] at accepts
    obtain ⟨-, hadmits, -⟩ := accepts_concat_iff.mp accepts.left
    obtain ⟨next, hnext, hnextBack, hreaches⟩ := h.readPlaced regular hadmits
    have hone : readOne grammar read (.ofText word) = .ok next := by
      rw [readOne, hback, if_pos rfl, hnext]
    rw [List.map_cons, List.map_cons, List.append_cons, readRest_of_ok hone]
    exact ih hreaches (hnextBack.trans hback) accepts

/-! ## The law -/

/-- **What is read is spelled**, and the grammar accepts it. -/
theorem spells_of_ofArguments {arguments : List Argument}
    (h : ofArguments grammar arguments = .ok read) :
    ∃ given, SpellsAll arguments given ∧ grammar.Accepts given ∧ grammar.Tells given read := by
  have hread : ofArguments grammar arguments = readRest grammar {} arguments := rfl
  have hcomes := (understood regular arguments).reached (reaches_nil grammar) rfl
  rw [← hread, h] at hcomes
  cases hcomes with
  | read spells accepts tells => exact ⟨_, spells, accepts, tells⟩

/-- **What is spelled is read**, when the grammar accepts it. -/
theorem ofArguments_of_spells {arguments : List Argument} (spells : SpellsAll arguments given)
    (accepts : grammar.Accepts given) :
    ∃ read, ofArguments grammar arguments = .ok read ∧ grammar.Tells given read := by
  have hread : ofArguments grammar arguments = readRest grammar {} arguments := rfl
  rw [hread]
  cases spells with
  | plain spells =>
    obtain ⟨next, hreaches, -, hrest⟩ :=
      exists_reaches regular spells (reaches_nil grammar) rfl accepts
    obtain ⟨settled, hsettle, -, hsettled⟩ := hreaches.settle regular
    refine ⟨settled, ?_, hsettled.tells⟩
    rw [← List.append_nil arguments, hrest]
    exact hsettle
  | dashes spells words =>
    obtain ⟨next, hreaches, hfront, hrest⟩ :=
      exists_reaches regular spells (reaches_nil grammar) rfl accepts.left
    rw [hrest, readRest_of_ok (readOne_dashes hfront)]
    exact exists_tells_trailing regular hreaches.dashes rfl accepts

/-- **Help is the answer exactly when it is asked for behind pieces that the grammar accepts.** -/
theorem ofArguments_eq_help_iff {arguments : List Argument} :
    ofArguments grammar arguments = .error .help ↔
      ∃ front given helper back, arguments = front ++ helper :: back ∧ Spells front given ∧
        grammar.Accepts given ∧ helper.AsksHelp := by
  have hread : ofArguments grammar arguments = readRest grammar {} arguments := rfl
  rw [hread]
  constructor
  · intro h
    have hcomes := (understood regular arguments).reached (reaches_nil grammar) rfl
    generalize readRest grammar {} arguments = result at h hcomes
    cases hcomes with
    | read => cases h
    | help spells accepts asks => exact ⟨_, _, _, _, rfl, spells, accepts, asks⟩
    | wrong => cases h
  · rintro ⟨front, given, helper, back, rfl, spells, accepts, asks⟩
    obtain ⟨next, hreaches, hfront, hrest⟩ :=
      exists_reaches regular spells (reaches_nil grammar) rfl accepts
    rw [hrest, readRest_cons, readOne_of_asksHelp hfront asks, hreaches.askHelp regular]
    rfl

end

end ReadArguments

end CavityConsole

import CavityConsole.CommandLine.Grammar
import CavityConsole.Proofs.CommandLine.Division
import CavityConsole.Proofs.Outcome
import Mathlib.Data.List.Nodup
import Mathlib.Data.List.Pairwise

/-!
# How the arguments of a command are spelled

A command is given flags, options with a value, and words. A value stands behind an equals sign or
is the next argument, and then it does not look like a named one; behind two dashes everything is a
word (`SpellsAll`). A grammar accepts what it is given when it knows every piece and nothing is
named twice (`Grammar.Accepts`).

An argument does not look like a named one, or it is two dashes, something named, or letters behind
one dash (`argument_cases`). What is named is a known flag or option, the word for help, or wrong
(`readNamed_cases`), and of the letters only the one for help is not wrong.
-/

namespace CavityConsole

/-! ## What a command is given -/

/-- A piece of what a command is given. -/
inductive Given where
  /-- A flag. -/
  | flag (name : String)
  /-- An option with its value. -/
  | option (name value : String)
  /-- A word that stands by its place. -/
  | word (word : String)

/-- The name of a piece, if it has one. -/
def Given.name? : Given → Option String
  | .flag name | .option name _ => some name
  | .word _ => none

/-- The word that a piece is, if it is one. -/
def Given.word? : Given → Option String
  | .word text => some text
  | .flag _ | .option _ _ => none

namespace Argument

/-- An argument that looks like a named one: it starts with a dash and goes on. -/
def Dashed (argument : Argument) : Prop := ∃ next rest, argument.bytes = 45 :: next :: rest

/-- An argument that asks for help: the word for it, or one dash and its letter. -/
def AsksHelp (argument : Argument) : Prop :=
  argument = .ofText "--help" ∨ ∃ rest, argument.bytes = 45 :: 104 :: rest

end Argument

/-- Arguments spell pieces, without the two dashes behind which everything is a word. -/
inductive Spells : List Argument → List Given → Prop where
  | nil : Spells [] []
  | flag {name : String} {rest : List Argument} {given : List Given} (h : Spells rest given) :
    Spells (.ofText ("--" ++ name) :: rest) (.flag name :: given)
  | attached {name value : String} {rest : List Argument} {given : List Given}
    (h : Spells rest given) :
    Spells (.ofText ("--" ++ name ++ "=" ++ value) :: rest) (.option name value :: given)
  | followed {name value : String} {rest : List Argument} {given : List Given}
    (hvalue : ¬ (Argument.ofText value).Dashed) (h : Spells rest given) :
    Spells (.ofText ("--" ++ name) :: .ofText value :: rest) (.option name value :: given)
  | word {word : String} {rest : List Argument} {given : List Given}
    (hword : ¬ (Argument.ofText word).Dashed) (h : Spells rest given) :
    Spells (.ofText word :: rest) (.word word :: given)

/-- Arguments spell pieces. -/
inductive SpellsAll : List Argument → List Given → Prop where
  | plain {arguments : List Argument} {given : List Given} (h : Spells arguments given) :
    SpellsAll arguments given
  | dashes {front : List Argument} {given : List Given} (h : Spells front given)
    (words : List String) :
    SpellsAll (front ++ .ofText "--" :: words.map .ofText) (given ++ words.map .word)

namespace Grammar

/-- A piece that a grammar knows. -/
def Admits (grammar : Grammar) : Given → Prop
  | .flag name => ⟨name, none⟩ ∈ grammar.named
  | .option name _ => ∃ value, ⟨name, some value⟩ ∈ grammar.named
  | .word word => ∃ place, grammar.placed = some place ∧ place.check (.ofText word) = none

/-- Pieces that a grammar accepts. -/
structure Accepts (grammar : Grammar) (given : List Given) : Prop where
  /-- Each of them is known. -/
  admits : ∀ piece ∈ given, grammar.Admits piece
  /-- Nothing is named twice. -/
  once : (given.filterMap Given.name?).Nodup

/-- A grammar whose arguments can be told from one another. -/
structure Regular (grammar : Grammar) : Prop where
  names : (grammar.named.map (·.name)).Nodup
  shown : (grammar.named.map (·.shown)).Nodup
  /-- A name is none of the words that mean something else, and holds no equals sign. -/
  plain : ∀ known ∈ grammar.named, known.name ≠ "" ∧ known.name ≠ "help" ∧
    Argument.equalsSign ∉ (Argument.ofText known.name).bytes
  place : ∀ place, grammar.placed = some place → place.shown ∉ grammar.named.map (·.shown)
  /-- What stands by its place is text. -/
  text : ∀ place, grammar.placed = some place → ∀ argument, place.check argument = none →
    ∃ word, argument = .ofText word

variable {grammar : Grammar} {given more : List Given} {piece : Given}

theorem Accepts.left (h : grammar.Accepts (given ++ more)) : grammar.Accepts given where
  admits piece hpiece := h.admits piece (List.mem_append_left _ hpiece)
  once := by
    have honce := h.once
    rw [List.filterMap_append] at honce
    exact (List.nodup_append.mp honce).1

theorem accepts_concat_iff :
    grammar.Accepts (given ++ [piece]) ↔
      grammar.Accepts given ∧ grammar.Admits piece ∧
        ∀ name ∈ piece.name?, name ∉ given.filterMap Given.name? := by
  have honce : ((given ++ [piece]).filterMap Given.name?).Nodup ↔
      (given.filterMap Given.name?).Nodup ∧
        ∀ name ∈ piece.name?, name ∉ given.filterMap Given.name? := by
    rw [List.filterMap_append, List.nodup_append]
    cases hname : piece.name? with
    | none => simp [hname]
    | some name =>
      simp only [List.filterMap_cons, hname, List.filterMap_nil, List.nodup_singleton, true_and,
        List.mem_singleton, Option.mem_def, Option.some.injEq, forall_eq, forall_eq',
        List.forall_mem_ne']
  constructor
  · intro h
    exact ⟨h.left, h.admits piece (by simp), (honce.mp h.once).2⟩
  · rintro ⟨h, hadmits, hname⟩
    refine ⟨fun other hother => ?_, honce.mpr ⟨h.once, hname⟩⟩
    rcases List.mem_append.mp hother with hother | hother
    · exact h.admits other hother
    · rw [List.mem_singleton.mp hother]
      exact hadmits

/-- What is accepted under one name is one piece. -/
theorem Accepts.eq_of_name (h : grammar.Accepts given) {a b : Given} (ha : a ∈ given)
    (hb : b ∈ given) {name : String} (haName : a.name? = some name)
    (hbName : b.name? = some name) : a = b := by
  have honce := List.pairwise_filterMap.mp h.once
  have hsymm : Std.Symm fun a b : Given =>
      ∀ x, a.name? = some x → ∀ y, b.name? = some y → x ≠ y :=
    ⟨fun a b hab x hx y hy => (hab y hy x hx).symm⟩
  by_contra hne
  exact honce.forall ha hb hne name haName name hbName rfl

/-- Two known arguments of one name are the same. -/
theorem Regular.eq_of_name (regular : grammar.Regular) {a b : NamedArgument}
    (ha : a ∈ grammar.named) (hb : b ∈ grammar.named) (h : a.name = b.name) : a = b :=
  List.inj_on_of_nodup_map regular.names ha hb h

theorem Regular.eq_of_shown (regular : grammar.Regular) {a b : NamedArgument}
    (ha : a ∈ grammar.named) (hb : b ∈ grammar.named) (h : a.shown = b.shown) : a = b :=
  List.inj_on_of_nodup_map regular.shown ha hb h

theorem Regular.find?_eq_some_iff (regular : grammar.Regular) {name : String}
    {known : NamedArgument} :
    grammar.named.find? (·.name == name) = some known ↔
      known ∈ grammar.named ∧ known.name = name := by
  constructor
  · intro h
    exact ⟨List.mem_of_find?_eq_some h, by simpa using List.find?_some h⟩
  · rintro ⟨hknown, rfl⟩
    cases hfind : grammar.named.find? (·.name == known.name) with
    | none => simpa using List.find?_eq_none.mp hfind known hknown
    | some found =>
      have hname : found.name = known.name := by simpa using List.find?_some hfind
      rw [regular.eq_of_name (List.mem_of_find?_eq_some hfind) hknown hname]

end Grammar

namespace ReadArguments

open Grammar

variable {grammar : Grammar} {read : ReadArguments}

/-! ## Kinds of arguments -/

theorem bytes_ofText_append (front back : String) :
    (Argument.ofText (front ++ back)).bytes =
      (Argument.ofText front).bytes ++ (Argument.ofText back).bytes := by
  simp only [Argument.bytes_ofText, Transport.bytesOf_eq, String.toList_append, List.flatMap_append]

theorem bytes_dashes : (Argument.ofText "--").bytes = [45, 45] := by
  rw [Argument.bytes_ofText, Transport.bytesOf_eq]
  rfl

theorem bytes_named (name : String) :
    (Argument.ofText ("--" ++ name)).bytes = 45 :: 45 :: (Argument.ofText name).bytes := by
  rw [bytes_ofText_append, bytes_dashes]
  rfl

theorem bytes_attached (name value : String) :
    (Argument.ofText ("--" ++ name ++ "=" ++ value)).bytes =
      45 :: 45 :: ((Argument.ofText name).bytes ++
        Argument.equalsSign :: (Argument.ofText value).bytes) := by
  have hequals : (Argument.ofText "=").bytes = [Argument.equalsSign] := by
    rw [Argument.bytes_ofText, Transport.bytesOf_eq]
    rfl
  rw [bytes_ofText_append, bytes_ofText_append, bytes_named, hequals]
  simp

theorem bytes_ne_nil {name : String} (h : name ≠ "") : (Argument.ofText name).bytes ≠ [] := by
  intro hnil
  have hempty : Argument.ofText name = Argument.ofText "" := by
    have hbytes : (Argument.ofText "").bytes = [] := by
      rw [Argument.bytes_ofText, Transport.bytesOf_eq]
      rfl
    exact congrArg Argument.mk (hnil.trans hbytes.symm)
  have htext := Argument.text?_eq_some_iff.mpr hempty
  rw [Argument.text?_eq_some_iff.mpr rfl] at htext
  exact h (Option.some.inj htext)

variable {argument : Argument} {rest : List UInt8}

section

variable (hfront : read.trailing = false)
include hfront

theorem readOne_dashes :
    readOne grammar read (.ofText "--") = .ok { read with trailing := true } := by
  rw [readOne, hfront, bytes_dashes]
  rfl

theorem readOne_named (h : argument.bytes = 45 :: 45 :: rest) (hrest : rest ≠ []) :
    readOne grammar read argument = read.readNamed grammar ⟨rest⟩ := by
  obtain ⟨first, rest, rfl⟩ := List.exists_cons_of_ne_nil hrest
  rw [readOne, hfront, h]
  rfl

theorem readOne_letters {letter : UInt8} (h : argument.bytes = 45 :: letter :: rest)
    (hletter : letter ≠ 45) :
    readOne grammar read argument = read.readLetters grammar (letter :: rest) := by
  rw [readOne, hfront, if_neg Bool.false_ne_true, h]
  cases rest with
  | nil => exact (if_neg fun hboth => hletter hboth.2).trans (if_pos rfl)
  | cons next rest => exact (if_neg fun hboth => hletter hboth.2).trans (if_pos rfl)

theorem readOne_value (h : ¬ argument.Dashed) :
    readOne grammar read argument = readOne.readValue grammar read argument := by
  have hplain : ∀ next rest, argument.bytes ≠ dash :: next :: rest :=
    fun next rest hbytes => h ⟨next, rest, hbytes⟩
  rw [readOne, hfront, if_neg Bool.false_ne_true]
  split
  next a b hbytes =>
    have ha : a ≠ dash := fun ha => hplain b [] (ha ▸ hbytes)
    rw [if_neg fun hboth => ha hboth.1, if_neg ha]
  next a b rest _ hbytes =>
    have ha : a ≠ dash := fun ha => hplain b rest (ha ▸ hbytes)
    rw [if_neg fun hboth => ha hboth.1, if_neg ha]
  next => rfl

end

/-- An argument is two dashes, a named one, letters, or it does not look like a named one. -/
theorem argument_cases (argument : Argument) :
    ¬ argument.Dashed ∨ argument = .ofText "--" ∨
      (∃ rest, rest ≠ [] ∧ argument.bytes = 45 :: 45 :: rest) ∨
        ∃ letter rest, letter ≠ 45 ∧ argument.bytes = 45 :: letter :: rest := by
  by_cases hdashed : argument.Dashed
  · obtain ⟨next, rest, hbytes⟩ := hdashed
    refine .inr ?_
    by_cases hnext : next = 45
    · subst hnext
      by_cases hrest : rest = []
      · subst hrest
        exact .inl (congrArg Argument.mk (hbytes.trans bytes_dashes.symm))
      · exact .inr (.inl ⟨rest, hrest, hbytes⟩)
    · exact .inr (.inr ⟨next, rest, hnext, hbytes⟩)
  · exact .inl hdashed

/-! ## Named arguments -/

/-- A reading that ends with something wrong. -/
def Fails {α : Type} (result : Except UsageStop α) : Prop := ∃ error, result = .error (.error error)

theorem Fails.bind {α β : Type} {result : Except UsageStop α} (h : Fails result)
    (next : α → Except UsageStop β) : Fails (result >>= next) := by
  obtain ⟨error, rfl⟩ := h
  exact ⟨error, rfl⟩

/-- What naming a flag or an option comes to when nothing is put off. -/
def named (known : NamedArgument) (settled : ReadArguments) : Except UsageStop ReadArguments :=
  if known.valueName.isSome then .ok { settled with pending := .option known none }
  else if settled.hasSeen known.shown then .error (.error (.repeated known.shown))
  else .ok (settled.see known.shown)

section

variable (regular : grammar.Regular)
include regular

theorem readNamed_known {known : NamedArgument} (hknown : known ∈ grammar.named)
    (read : ReadArguments) :
    read.readNamed grammar (.ofText known.name) = read.settle grammar >>= named known := by
  obtain ⟨-, hhelp, hequals⟩ := regular.plain known hknown
  have htext := Argument.text?_eq_some_iff.mpr (Eq.refl (Argument.ofText known.name))
  have hfind : grammar.named.find? (·.name == known.name) = some known :=
    regular.find?_eq_some_iff.mpr ⟨hknown, rfl⟩
  rw [readNamed, Argument.splitEquals_of_notMem hequals]
  dsimp only
  rw [htext]
  split
  next heq => exact absurd (Option.some.inj heq) hhelp
  next =>
    rw [Option.bind_some, hfind]
    rfl

theorem readNamed_attached {known : NamedArgument} (hknown : known ∈ grammar.named)
    (value : Argument) (read : ReadArguments) :
    read.readNamed grammar
        ⟨(Argument.ofText known.name).bytes ++ Argument.equalsSign :: value.bytes⟩ =
      if known.valueName.isSome then read.settle grammar >>= (·.takeValue known value)
      else .error (.error (.unexpectedValue value.shown known.shown)) := by
  obtain ⟨-, hhelp, hequals⟩ := regular.plain known hknown
  have htext := Argument.text?_eq_some_iff.mpr (Eq.refl (Argument.ofText known.name))
  have hfind : grammar.named.find? (·.name == known.name) = some known :=
    regular.find?_eq_some_iff.mpr ⟨hknown, rfl⟩
  rw [readNamed, Argument.splitEquals_append value hequals]
  dsimp only
  rw [htext]
  split
  next heq => exact absurd (Option.some.inj heq) hhelp
  next =>
    rw [Option.bind_some, hfind]
    rfl

/-- A named argument that is none of the known ones is the word for help, or it is wrong. -/
theorem readNamed_cases (argument : Argument) :
    (∃ known ∈ grammar.named, argument = .ofText known.name) ∨
      (∃ known ∈ grammar.named, ∃ value : Argument,
        argument = ⟨(Argument.ofText known.name).bytes ++ Argument.equalsSign :: value.bytes⟩) ∨
      argument = .ofText "help" ∨
        ∀ read : ReadArguments, Fails (read.readNamed grammar argument) := by
  rcases Argument.equalsSign_cases argument with hequals | ⟨name, value, hequals, rfl⟩
  · cases hknown : argument.text?.bind fun text => grammar.named.find? (·.name == text) with
    | some known =>
      obtain ⟨text, htext, hfind⟩ := Option.bind_eq_some_iff.mp hknown
      obtain ⟨hmem, rfl⟩ := regular.find?_eq_some_iff.mp hfind
      exact .inl ⟨known, hmem, Argument.text?_eq_some_iff.mp htext⟩
    | none =>
      by_cases hhelp : argument.text? = some "help"
      · exact .inr (.inr (.inl (Argument.text?_eq_some_iff.mp hhelp)))
      · refine .inr (.inr (.inr fun read => ?_))
        rw [readNamed, Argument.splitEquals_of_notMem hequals]
        dsimp only
        split
        next heq => exact absurd heq hhelp
        next =>
          rw [hknown]
          exact ⟨_, rfl⟩
  · cases hknown : name.text?.bind fun text => grammar.named.find? (·.name == text) with
    | some known =>
      obtain ⟨text, htext, hfind⟩ := Option.bind_eq_some_iff.mp hknown
      obtain ⟨hmem, rfl⟩ := regular.find?_eq_some_iff.mp hfind
      refine .inr (.inl ⟨known, hmem, value, ?_⟩)
      rw [Argument.text?_eq_some_iff.mp htext]
    | none =>
      refine .inr (.inr (.inr fun read => ?_))
      rw [readNamed, Argument.splitEquals_append value hequals]
      dsimp only
      split
      next => exact ⟨_, rfl⟩
      next =>
        rw [hknown]
        exact ⟨_, rfl⟩

end

theorem readNamed_help (grammar : Grammar) (read : ReadArguments) :
    read.readNamed grammar (.ofText "help") = read.askHelp grammar := by
  have hequals : Argument.equalsSign ∉ (Argument.ofText "help").bytes := by
    simp [Argument.bytes_ofText, Transport.bytesOf_eq, String.utf8EncodeChar, Argument.equalsSign]
  rw [readNamed, Argument.splitEquals_of_notMem hequals]
  dsimp only
  rw [Argument.text?_eq_some_iff.mpr rfl]
  split
  next => rfl
  next hother => exact absurd rfl hother

/-! ## Letters -/

/-- The first character is the letter for help exactly when the first byte is. -/
theorem firstChar_eq_help_iff {first : UInt8} {rest : List UInt8} :
    (Text.firstChar first rest).2 = 'h' ↔ first = 104 := by
  constructor
  · intro h
    rw [Text.firstChar] at h
    split at h
    next => cases h
    next count least most _ =>
      dsimp only at h
      split at h
      next text htext =>
        obtain ⟨letters, htoList⟩ : ∃ letters, text.toList = 'h' :: letters := by
          cases hlist : text.toList with
          | nil =>
            rw [hlist] at h
            cases h
          | cons letter letters =>
            rw [hlist] at h
            exact ⟨letters, congrArg (· :: letters) h⟩
        have harguments : Argument.text? ⟨first :: rest.take _⟩ = some text := htext
        have hbytes := congrArg Argument.bytes (Argument.text?_eq_some_iff.mp harguments)
        rw [Argument.bytes_ofText, Transport.bytesOf_eq, htoList, List.flatMap_cons] at hbytes
        exact (List.cons.inj hbytes).1
      next => cases h
  · rintro rfl
    have hletter : String.fromUTF8? ⟨[104].toArray⟩ = some "h" := by rfl
    have hfirst : Text.continuation 104 = some (0, 0x80, 0xBF) := by decide
    rw [Text.firstChar, hfirst]
    dsimp only [Text.continuing, List.take_zero]
    rw [hletter]
    rfl

theorem readLetters_help (grammar : Grammar) (read : ReadArguments) (rest : List UInt8) :
    read.readLetters grammar (104 :: rest) = read.askHelp grammar := by
  have hfirst : Text.firstChar 104 rest = ((Text.firstChar 104 rest).1, 'h') :=
    Prod.ext rfl (firstChar_eq_help_iff.mpr rfl)
  rw [readLetters]
  dsimp only
  rw [hfirst]
  rfl

theorem readLetters_other {letter : UInt8} (h : letter ≠ 104) (read : ReadArguments)
    (rest : List UInt8) : Fails (read.readLetters grammar (letter :: rest)) := by
  rw [readLetters]
  dsimp only
  split
  next heq => exact absurd (firstChar_eq_help_iff.mp (congrArg Prod.snd heq)) h
  next => exact ⟨_, rfl⟩
  next => exact ⟨_, rfl⟩

/-! ## What one argument comes to -/

/-- Each way to ask for help is taken for it. -/
theorem readOne_of_asksHelp (hfront : read.trailing = false) (h : argument.AsksHelp) :
    readOne grammar read argument = read.askHelp grammar := by
  rcases h with rfl | ⟨rest, hbytes⟩
  · have hone : readOne grammar read (.ofText ("--" ++ "help")) = _ :=
      readOne_named hfront (bytes_named "help") (bytes_ne_nil (by decide))
    exact hone.trans (readNamed_help grammar read)
  · rw [readOne_letters hfront hbytes (by decide), readLetters_help]

section

variable (regular : grammar.Regular)
include regular

theorem readOne_known (hfront : read.trailing = false) {known : NamedArgument}
    (hknown : known ∈ grammar.named) :
    readOne grammar read (.ofText ("--" ++ known.name)) =
      read.settle grammar >>= named known := by
  have hname := bytes_ne_nil (regular.plain known hknown).1
  rw [readOne_named hfront (bytes_named known.name) hname]
  exact readNamed_known regular hknown read

theorem readOne_attached (hfront : read.trailing = false) {known : NamedArgument}
    (hknown : known ∈ grammar.named) (value : String) :
    readOne grammar read (.ofText ("--" ++ known.name ++ "=" ++ value)) =
      if known.valueName.isSome then
        read.settle grammar >>= (·.takeValue known (.ofText value))
      else .error (.error (.unexpectedValue (Argument.ofText value).shown known.shown)) := by
  rw [readOne_named hfront (bytes_attached known.name value) (by simp)]
  exact readNamed_attached regular hknown (.ofText value) read

end

end ReadArguments

end CavityConsole

import CavityConsole.Proofs.CommandLine.Division
import CavityConsole.Proofs.Settings.Values
import CavityConsole.Proofs.Text.Typing
import Mathlib.Data.List.Nodup

/-!
# Flags as they are written

A flag is written in one of five ways (`ConfigFlag.Written`), and
`ConfigFlag.ofArgument?_eq_some_iff` says that no others are understood. The text behind a flag
gives a value when it is one of the type of its setting (`Setting.Typed`,
`Flags.value?_eq_some_iff`): what a flag gives is checked at once.

**The law** (`Flags.read_eq_some_iff`): arguments are read exactly when they spell flags, each once
and with a text that it accepts. The layer of the flags then holds for each setting what its flag
gives (`Flags.layer_get?`).
-/

namespace CavityConsole

namespace ConfigFlag

/-! ## One argument -/

/-- An argument that names a flag, and the value that it holds, if any. -/
inductive Written (flag : ConfigFlag) : String → Option String → Prop where
  /-- The text of the flag. -/
  | text : Written flag flag.text none
  /-- The value stands behind an equals sign. -/
  | equals (value : String) : Written flag (flag.text ++ "=" ++ value) (some value)
  /-- One dash and the letter of the flag. -/
  | letter {l : Char} (isLetter : flag.letter? = some l) :
    Written flag (String.ofList ['-', l]) none
  /-- The value stands behind the letter and an equals sign. -/
  | letterEquals {l : Char} (isLetter : flag.letter? = some l) (value : List Char) :
    Written flag (String.ofList ('-' :: l :: '=' :: value)) (some (String.ofList value))
  /-- The value stands behind the letter. -/
  | letterValue {l : Char} (isLetter : flag.letter? = some l) {first : Char} (rest : List Char)
    (noSign : first ≠ '=') :
    Written flag (String.ofList ('-' :: l :: first :: rest)) (some (String.ofList (first :: rest)))

theorem splitEquals_of_notMem {argument : String} (h : '=' ∉ argument.toList) :
    splitEquals argument = (argument, none) := by
  have hdrop : argument.toList.dropWhile (· != '=') = [] :=
    List.dropWhile_eq_nil_iff.mpr fun c hc => by simpa using ne_of_mem_of_not_mem hc h
  rw [splitEquals, hdrop]

theorem splitEquals_append {name : String} (value : String) (h : '=' ∉ name.toList) :
    splitEquals (name ++ "=" ++ value) = (name, some value) := by
  have hname : ∀ c ∈ name.toList, (c != '=') = true := fun c hc => by
    simpa using ne_of_mem_of_not_mem hc h
  have hcs : (name ++ "=" ++ value).toList = name.toList ++ '=' :: value.toList := by simp
  rw [splitEquals, hcs, List.dropWhile_append_of_pos hname, List.takeWhile_append_of_pos hname]
  simp

theorem equals_cases (argument : String) :
    '=' ∉ argument.toList ∨
      ∃ name value : String, '=' ∉ name.toList ∧ argument = name ++ "=" ++ value := by
  by_cases hmem : '=' ∈ argument.toList
  · obtain ⟨name, value, hcs, hname⟩ := List.eq_append_cons_of_mem hmem
    refine .inr ⟨String.ofList name, String.ofList value, by simpa using hname, ?_⟩
    apply String.toList_injective
    simpa using hcs
  · exact .inl hmem

theorem equals_notMem_text (flag : ConfigFlag) : '=' ∉ flag.text.toList := by
  cases flag with
  | configPath => decide +kernel
  | setting setting => cases setting <;> decide +kernel

theorem ofLetter?_eq_some_iff {l : Char} {flag : ConfigFlag} :
    ofLetter? l = some flag ↔ flag.letter? = some l := by
  constructor
  · intro h
    rw [ofLetter?] at h
    exact beq_iff_eq.mp (List.find?_some h :)
  · intro h
    cases flag with
    | configPath => cases h
    | setting setting => cases setting <;> cases h <;> decide +kernel

theorem dash_of_text (flag : ConfigFlag) : flag.text.toList[1]? = some '-' := by
  cases flag with
  | configPath => decide +kernel
  | setting setting => cases setting <;> decide +kernel

theorem ne_of_letter {flag : ConfigFlag} {l c : Char} (h : flag.letter? = some l)
    (hc : c = '-' ∨ c = '=') : l ≠ c := by
  rintro rfl
  cases flag with
  | configPath => cases h
  | setting setting => cases setting <;> cases h <;> exact absurd hc (by decide)

/-- The text of a flag starts with two dashes, a letter follows one. -/
theorem ofText?_of_letter {flag : ConfigFlag} {l : Char} (h : flag.letter? = some l)
    (rest : List Char) : ofText? (String.ofList ('-' :: l :: rest)) = none := by
  refine Option.eq_none_iff_forall_ne_some.mpr fun other hother => ?_
  have hsecond := dash_of_text other
  rw [← ofText?_eq_some_iff.mp hother, String.toList_ofList] at hsecond
  exact ne_of_letter h (.inl rfl) (Option.some.inj hsecond)

theorem ofArgument?_of_letter {flag : ConfigFlag} {l : Char} (h : flag.letter? = some l)
    (rest : List Char) :
    ofText? (splitEquals (String.ofList ('-' :: l :: rest))).1 = none := by
  rcases equals_cases (String.ofList rest) with hrest | ⟨name, value, hname, hrest⟩
  · have hmem : '=' ∉ (String.ofList ('-' :: l :: rest)).toList := by
      have hl : '=' ≠ l := (ne_of_letter h (.inr rfl)).symm
      simpa [hl] using hrest
    rw [splitEquals_of_notMem hmem]
    exact ofText?_of_letter h rest
  · have hwhole : String.ofList ('-' :: l :: rest) =
        String.ofList ('-' :: l :: name.toList) ++ "=" ++ value := by
      apply String.toList_injective
      have hcs := congrArg String.toList hrest
      simpa using hcs
    have hmem : '=' ∉ (String.ofList ('-' :: l :: name.toList)).toList := by
      have hl : '=' ≠ l := (ne_of_letter h (.inr rfl)).symm
      simpa [hl] using hname
    rw [hwhole, splitEquals_append value hmem]
    exact ofText?_of_letter h _

/-- **What an argument names is what is written in it.** -/
theorem ofArgument?_eq_some_iff {argument : String} {flag : ConfigFlag} {value : Option String} :
    ofArgument? argument = some (flag, value) ↔ Written flag argument value := by
  constructor
  · intro h
    cases hname : ofText? (splitEquals argument).1 with
    | some other =>
      have htext := ofText?_eq_some_iff.mp hname
      simp only [ofArgument?, hname] at h
      rcases equals_cases argument with hmem | ⟨name, given, hnoSign, rfl⟩
      · rw [splitEquals_of_notMem hmem] at h htext
        cases h
        obtain rfl : argument = flag.text := htext
        exact .text
      · rw [splitEquals_append given hnoSign] at h htext
        cases h
        obtain rfl : name = flag.text := htext
        exact .equals given
    | none =>
      -- no flag has this text, so a letter is looked for
      simp only [ofArgument?, hname] at h
      rw [← String.ofList_toList (s := argument)]
      split at h
      next l hcs =>
        obtain ⟨_, hflag, heq⟩ := Option.map_eq_some_iff.mp h
        cases heq
        exact hcs ▸ .letter (ofLetter?_eq_some_iff.mp hflag)
      next l given hcs =>
        obtain ⟨_, hflag, heq⟩ := Option.map_eq_some_iff.mp h
        cases heq
        exact hcs ▸ .letterEquals (ofLetter?_eq_some_iff.mp hflag) given
      next l given halone hsign hcs =>
        obtain ⟨_, hflag, heq⟩ := Option.map_eq_some_iff.mp h
        cases heq
        cases given with
        | nil => exact absurd rfl halone
        | cons first rest =>
          rw [hcs]
          exact .letterValue (ofLetter?_eq_some_iff.mp hflag) rest fun h => hsign rest (by rw [h])
      next => cases h
  · intro h
    cases h with
    | text =>
      simp only [ofArgument?, splitEquals_of_notMem (equals_notMem_text flag),
        ofText?_eq_some_iff.mpr rfl]
    | equals value =>
      simp only [ofArgument?, splitEquals_append value (equals_notMem_text flag),
        ofText?_eq_some_iff.mpr rfl]
    | letter isLetter =>
      simp only [ofArgument?, ofArgument?_of_letter isLetter, String.toList_ofList,
        ofLetter?_eq_some_iff.mpr isLetter, Option.map_some]
    | letterEquals isLetter value =>
      simp only [ofArgument?, ofArgument?_of_letter isLetter, String.toList_ofList,
        ofLetter?_eq_some_iff.mpr isLetter, Option.map_some]
    | letterValue isLetter rest noSign =>
      simp only [ofArgument?, ofArgument?_of_letter isLetter, String.toList_ofList]
      split
      next h => cases h
      next h =>
        cases h
        exact absurd rfl noSign
      next h =>
        cases h
        rw [ofLetter?_eq_some_iff.mpr isLetter, Option.map_some]
      next h => exact absurd rfl (h _ _)

end ConfigFlag

/-! ## Values -/

/-- What a setting is given by a text behind its flag. A minus sign may only stand in front of a
port, and then of nothing but zeros. -/
inductive Setting.Typed : Setting → String → Json → Prop where
  | text {setting : Setting} (isText : setting.isText = true) (text : String) :
    Typed setting text (.string text)
  | number {setting : Setting} {bound n : Nat} {text : String}
    (isNumber : setting.bound? = some bound) (whole : Text.WholeNumber text.toList n)
    (fits : n ≤ bound) (sign : setting = .serverPort ∨ ∀ digits, text.toList ≠ '-' :: digits) :
    Typed setting text (.number (.integer n))
  | form {text : String} (form : LogFormat) (named : LogFormat.lowerCase text = form.name) :
    Typed .logFormat text (.string form.name)

theorem read_eq_ok_iff {text : String} {form : LogFormat} :
    LogFormat.read text = .ok form ↔ LogFormat.lowerCase text = form.name := by
  rw [← Settings.lookup_choice_eq_some_iff, LogFormat.read]
  split
  next heq => rw [heq, Except.ok.injEq, Option.some.injEq]
  next heq => simp [heq]

namespace Flags

/-- **What the text behind a flag gives.** -/
theorem value?_eq_some_iff {setting : Setting} {text : String} {value : Json} :
    value? setting text = some value ↔ setting.Typed text value := by
  constructor
  · intro h
    cases setting with
    | serverHost | logFilter =>
      cases h
      exact .text rfl text
    | serverPort =>
      rw [value?] at h
      split at h
      next i hread =>
        split at h
        next hrange =>
          cases h
          obtain ⟨n, rfl⟩ := Int.eq_ofNat_of_zero_le hrange.1
          have whole := (Text.readInt_eq_ok_iff.mp hread).1
          exact .number rfl whole (Int.ofNat_le.mp hrange.2) (.inl rfl)
        next => cases h
      next => cases h
    | connectTimeoutSecs | responseTimeoutSecs | maxFrameLength =>
      rw [value?] at h
      split at h
      next n hread =>
        cases h
        obtain ⟨whole, fits, sign⟩ := Text.readNat_eq_ok_iff_whole.mp hread
        exact .number rfl whole fits (.inr sign)
      next => cases h
    | logFormat =>
      rw [value?] at h
      split at h
      next form hread =>
        cases h
        exact .form form (read_eq_ok_iff.mp hread)
      next => cases h
  · intro h
    cases h with
    | text isText => cases setting <;> first | rfl | cases isText
    | @number _ _ n _ isNumber whole fits sign =>
      cases setting with
      | serverPort =>
        cases isNumber
        have hfits : n ≤ 65535 := fits
        have hread : Text.readInt 64 text.toList = .ok (n : Int) :=
          Text.readInt_eq_ok_iff.mpr ⟨whole, by omega, by omega⟩
        simp only [value?, hread]
        exact if_pos ⟨Int.natCast_nonneg n, Int.ofNat_le.mpr fits⟩
      | connectTimeoutSecs | responseTimeoutSecs | maxFrameLength =>
        cases isNumber
        have hread := Text.readNat_eq_ok_iff_whole.mpr ⟨whole, fits, sign.resolve_left (by decide)⟩
        simp only [value?, hread]
      | _ => cases isNumber
    | form form named => rw [value?, read_eq_ok_iff.mpr named]

/-! ## All arguments -/

/-- Arguments that give flags with their values in this order. Two dashes alone may stand behind
them. -/
inductive Spells : List String → List (ConfigFlag × String) → Prop where
  | nil : Spells [] []
  | dashes : Spells ["--"] []
  | attached {argument value : String} {flag : ConfigFlag} {arguments : List String}
    {given : List (ConfigFlag × String)} (written : flag.Written argument (some value))
    (rest : Spells arguments given) : Spells (argument :: arguments) ((flag, value) :: given)
  | followed {argument value : String} {flag : ConfigFlag} {arguments : List String}
    {given : List (ConfigFlag × String)} (written : flag.Written argument none)
    (isValue : isValue value = true) (rest : Spells arguments given) :
    Spells (argument :: value :: arguments) ((flag, value) :: given)

theorem ne_dashes_of_written {argument : String} {flag : ConfigFlag} {value : Option String}
    (h : flag.Written argument value) : argument ≠ "--" := by
  rintro rfl
  have hnone : ConfigFlag.ofArgument? "--" = none := by decide +kernel
  rw [ConfigFlag.ofArgument?_eq_some_iff.mpr h] at hnone
  cases hnone

theorem readFrom_of_spells {arguments : List String} {given : List (ConfigFlag × String)}
    (h : Spells arguments given) (flags : Flags) :
    readFrom flags arguments =
      given.foldlM (fun flags entry => flags.add entry.1 entry.2) flags := by
  induction h generalizing flags with
  | nil => rfl
  | dashes => rfl
  | attached written rest ih =>
    rw [readFrom, ConfigFlag.ofArgument?_eq_some_iff.mpr written, List.foldlM_cons]
    · simp only [ih]
      rfl
    · exact ne_dashes_of_written written
  | followed written isValue rest ih =>
    rw [readFrom, ConfigFlag.ofArgument?_eq_some_iff.mpr written, List.foldlM_cons]
    · simp only [ih, isValue, if_true]
      rfl
    · exact ne_dashes_of_written written

theorem exists_spells {arguments : List String} {flags flags' : Flags}
    (h : readFrom flags arguments = some flags') : ∃ given, Spells arguments given := by
  fun_induction readFrom flags arguments with
  | case1 => exact ⟨[], .nil⟩
  | case2 flags rest hrest =>
    rw [List.isEmpty_iff.mp hrest]
    exact ⟨[], .dashes⟩
  | case5 flags argument rest _ flag value hflag ih =>
    obtain ⟨flags, -, h⟩ := Option.bind_eq_some_iff.mp h
    obtain ⟨given, hgiven⟩ := ih flags h
    exact ⟨_, .attached (ConfigFlag.ofArgument?_eq_some_iff.mp hflag) hgiven⟩
  | case7 flags argument _ flag hflag value rest hvalue ih =>
    obtain ⟨flags, -, h⟩ := Option.bind_eq_some_iff.mp h
    obtain ⟨given, hgiven⟩ := ih flags h
    exact ⟨_, .followed (ConfigFlag.ofArgument?_eq_some_iff.mp hflag) hvalue hgiven⟩
  | case3 | case4 | case6 | case8 => cases h

/-- A flag with a text behind it that it accepts. The name of a file may be any text. -/
def Accepted (entry : ConfigFlag × String) : Prop :=
  ∀ setting, entry.1 = .setting setting → ∃ value, setting.Typed entry.2 value

theorem accepts_iff {flag : ConfigFlag} {value : String} :
    accepts flag value = true ↔ Accepted (flag, value) := by
  cases flag with
  | configPath => exact ⟨fun _ => nofun, fun _ => rfl⟩
  | setting setting =>
    rw [accepts, Option.isSome_iff_exists]
    simp only [value?_eq_some_iff]
    refine ⟨fun h other heq => ?_, fun h => h setting rfl⟩
    cases heq
    exact h

theorem lookup_isNone_iff {given : List (ConfigFlag × String)} {flag : ConfigFlag} :
    (given.lookup flag).isNone = true ↔ flag ∉ given.map Prod.fst := by
  rw [Option.isNone_iff_eq_none, List.lookup_eq_none_iff, List.mem_map]
  refine ⟨?_, fun h entry hentry => bne_iff_ne.mpr fun heq => h ⟨entry, hentry, heq.symm⟩⟩
  rintro h ⟨entry, hentry, rfl⟩
  exact bne_iff_ne.mp (h entry hentry) rfl

theorem add_eq_some_iff {flags after : Flags} {flag : ConfigFlag} {value : String} :
    flags.add flag value = some after ↔
      Accepted (flag, value) ∧ flag ∉ flags.given.map Prod.fst ∧
        ⟨flags.given ++ [(flag, value)]⟩ = after := by
  rw [← accepts_iff, ← lookup_isNone_iff, add]
  split
  next h => rw [Option.some.injEq, and_iff_right h.1, and_iff_right h.2]
  next h => exact ⟨nofun, fun ⟨haccepted, habsent, _⟩ => absurd ⟨haccepted, habsent⟩ h⟩

theorem nodup_keys_concat {given : List (ConfigFlag × String)} {flag : ConfigFlag}
    {value : String} :
    ((given ++ [(flag, value)]).map Prod.fst).Nodup ↔
      flag ∉ given.map Prod.fst ∧ (given.map Prod.fst).Nodup := by
  rw [List.map_append, List.map_singleton, ← List.concat_eq_append, List.nodup_concat]

/-- Flags are added one after the other when all are accepted and none stands twice. -/
theorem foldlM_add_eq_some_iff {given : List (ConfigFlag × String)} {flags after : Flags}
    (hnodup : (flags.given.map Prod.fst).Nodup) :
    given.foldlM (fun flags entry => flags.add entry.1 entry.2) flags = some after ↔
      (∀ entry ∈ given, Accepted entry) ∧ ((flags.given ++ given).map Prod.fst).Nodup ∧
        ⟨flags.given ++ given⟩ = after := by
  induction given generalizing flags with
  | nil =>
    rw [List.foldlM_nil, List.append_nil]
    exact ⟨fun h => ⟨nofun, hnodup, Option.some.inj h⟩, fun ⟨_, _, h⟩ => congrArg some h⟩
  | cons entry given ih =>
    obtain ⟨flag, value⟩ := entry
    have hmoved : flags.given ++ (flag, value) :: given = flags.given ++ [(flag, value)] ++ given :=
      (List.append_assoc _ _ _).symm ▸ rfl
    rw [List.foldlM_cons, List.forall_mem_cons, hmoved]
    show (flags.add flag value).bind _ = _ ↔ _
    rw [Option.bind_eq_some_iff]
    constructor
    · rintro ⟨middle, hmiddle, h⟩
      obtain ⟨haccepted, habsent, rfl⟩ := add_eq_some_iff.mp hmiddle
      obtain ⟨hall, h⟩ := (ih (nodup_keys_concat.mpr ⟨habsent, hnodup⟩)).mp h
      exact ⟨⟨haccepted, hall⟩, h⟩
    · rintro ⟨⟨haccepted, hall⟩, hwhole, h⟩
      have hfront : ((flags.given ++ [(flag, value)]).map Prod.fst).Nodup :=
        hwhole.sublist ((List.sublist_append_left _ given).map Prod.fst)
      exact ⟨_, add_eq_some_iff.mpr ⟨haccepted, (nodup_keys_concat.mp hfront).1, rfl⟩,
        (ih hfront).mpr ⟨hall, hwhole, h⟩⟩

/-- Each flag once and with a text that it accepts. -/
structure Valid (given : List (ConfigFlag × String)) : Prop where
  once : (given.map Prod.fst).Nodup
  accepted : ∀ entry ∈ given, Accepted entry

/-- Flags as they are spelled are read when they are valid. -/
theorem read_of_spells {arguments : List String} {given : List (ConfigFlag × String)}
    (h : Spells arguments given) {flags : Flags} :
    read arguments = some flags ↔ Valid given ∧ ⟨given⟩ = flags := by
  have hread : read arguments = some flags ↔ (∀ entry ∈ given, Accepted entry) ∧
      (given.map Prod.fst).Nodup ∧ ⟨given⟩ = flags := by
    rw [read, readFrom_of_spells h]
    exact foldlM_add_eq_some_iff List.nodup_nil
  rw [hread]
  exact ⟨fun ⟨accepted, once, heq⟩ => ⟨⟨once, accepted⟩, heq⟩,
    fun ⟨valid, heq⟩ => ⟨valid.accepted, valid.once, heq⟩⟩

/-- **The flags that are read** are those that are spelled, when they are valid. -/
theorem read_eq_some_iff {arguments : List String} {given : List (ConfigFlag × String)} :
    read arguments = some ⟨given⟩ ↔ Spells arguments given ∧ Valid given := by
  constructor
  · intro h
    obtain ⟨given', hspells⟩ := exists_spells h
    obtain ⟨hvalid, heq⟩ := (read_of_spells hspells).mp h
    cases heq
    exact ⟨hspells, hvalid⟩
  · rintro ⟨hspells, hvalid⟩
    exact (read_of_spells hspells).mpr ⟨hvalid, rfl⟩

/-- A flag that stands once is found with the text that it stands with. -/
theorem lookup_eq_some_iff {given : List (ConfigFlag × String)} {flag : ConfigFlag} {text : String}
    (once : (given.map Prod.fst).Nodup) :
    given.lookup flag = some text ↔ (flag, text) ∈ given := by
  rw [List.lookup_eq_some_iff]
  constructor
  · rintro ⟨front, back, rfl, -⟩
    exact List.mem_append_right _ List.mem_cons_self
  · intro hmem
    obtain ⟨front, back, rfl⟩ := List.append_of_mem hmem
    rw [List.map_append, List.nodup_append] at once
    refine ⟨front, back, rfl, fun entry hentry => bne_iff_ne.mpr (Ne.symm ?_)⟩
    exact once.2.2 entry.1 (List.mem_map_of_mem hentry) flag List.mem_cons_self

theorem valid_iff {given : List (ConfigFlag × String)} :
    Valid given ↔ (given.map Prod.fst).Nodup ∧
      ∀ (setting : Setting) text, given.lookup (.setting setting) = some text →
        ∃ value, setting.Typed text value := by
  constructor
  · intro h
    refine ⟨h.once, fun setting text hset => ?_⟩
    exact h.accepted _ ((lookup_eq_some_iff h.once).mp hset) setting rfl
  · rintro ⟨once, htyped⟩
    refine ⟨once, fun entry hentry setting hflag => htyped setting entry.2 ?_⟩
    rw [lookup_eq_some_iff once, ← hflag]
    exact hentry

/-! ## The layer of the flags -/

/-- A setting as it stands among the values of the flags. -/
def named : ConfigFlag × String → Option (String × Json)
  | (.setting setting, value) => (value? setting value).map fun given => (setting.name, given)
  | (.configPath, _) => none

theorem layer_eq (flags : Flags) :
    flags.layer = ⟨Members.ofList (flags.given.filterMap named)⟩ := rfl

theorem lastOf_named_cons (other : Setting) (text : String) (given : List (ConfigFlag × String))
    (key : String) :
    Members.lastOf (((.setting other, text) :: given).filterMap named) key =
      (Members.lastOf (given.filterMap named) key).or
        (if key = other.name then value? other text else none) := by
  cases hvalue : value? other text with
  | none =>
    rw [List.filterMap_cons_none (by rw [named, hvalue]; rfl), ite_self, Option.or_none]
  | some value =>
    rw [List.filterMap_cons_some (by rw [named, hvalue]; rfl), Members.lastOf_cons]

theorem lastOf_named {given : List (ConfigFlag × String)} (hnodup : (given.map Prod.fst).Nodup)
    (setting : Setting) :
    Members.lastOf (given.filterMap named) setting.name =
      (given.lookup (.setting setting)).bind (value? setting) := by
  induction given with
  | nil => rfl
  | cons entry given ih =>
    obtain ⟨flag, text⟩ := entry
    obtain ⟨habsent, hrest⟩ := List.nodup_cons.mp hnodup
    cases flag with
    | configPath => exact ih hrest
    | setting other =>
      rw [lastOf_named_cons, ih hrest]
      by_cases hsame : setting = other
      · subst hsame
        have hnone : given.lookup (.setting setting) = none :=
          Option.isNone_iff_eq_none.mp (lookup_isNone_iff.mpr habsent)
        rw [hnone, if_pos rfl, List.lookup_cons, beq_self_eq_true]
        rfl
      · have hflag : (ConfigFlag.setting setting == .setting other) = false := by
          simpa using hsame
        rw [if_neg fun heq => hsame (Setting.name_injective heq), Option.or_none, List.lookup_cons,
          hflag]

/-- **The layer of the flags holds for a setting what its flag gives.** -/
theorem layer_get? {given : List (ConfigFlag × String)} (hnodup : (given.map Prod.fst).Nodup)
    (setting : Setting) :
    (layer ⟨given⟩).values.get? setting.name =
      (given.lookup (.setting setting)).bind (value? setting) := by
  rw [layer_eq, (Members.settles_ofList _).last, lastOf_named hnodup]

theorem layer_ascending (flags : Flags) : Members.Ascending flags.layer.values :=
  (Members.settles_ofList _).ascending

end Flags

end CavityConsole

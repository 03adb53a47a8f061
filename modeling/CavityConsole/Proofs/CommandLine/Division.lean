import CavityConsole.CommandLine.Split
import CavityConsole.Proofs.Transport.Frames

/-!
# The two parts of a command line

In front of the command stand flags of the configuration (`FlagRun`): each holds its value behind an
equals sign, or the next argument is its value, whatever that looks like; only a flag at the very
end may be without a value. The command begins at the first argument that stands where a flag would
and is none.

**The law** (`ofArguments_divides`): this describes one division of every command line
(`Divides`), and it is the one that is made. Nothing is lost, moved or altered, and either part,
divided again, stays as it is.

A flag is told by its bytes alone (`Argument.role_ofFlag`, `Argument.role_attached`,
`Argument.role_of_not_isFlag`): an argument that is no text is none.
-/

namespace CavityConsole

/-! ## Texts and bytes -/

theorem toList_loop (bytes : ByteArray) (start : Nat) (done : List UInt8) :
    ByteArray.toList.loop bytes start done = done.reverse ++ bytes.data.toList.drop start := by
  fun_induction ByteArray.toList.loop bytes start done with
  | case1 start done h ih =>
    have hstart : start < bytes.data.toList.length := h
    rw [ih, List.reverse_cons, List.append_assoc, List.singleton_append,
      List.drop_eq_getElem_cons hstart]
    have hbyte : bytes.get! start = bytes.data.toList[start] :=
      (getElem!_pos bytes.data start h).trans (Array.getElem_toList h).symm
    rw [hbyte]
  | case2 start done h =>
    have hstart : bytes.data.toList.length ≤ start := Nat.le_of_not_lt h
    rw [List.drop_eq_nil_of_le hstart, List.append_nil]

namespace Argument

theorem bytes_ofText (text : String) : (ofText text).bytes = Transport.bytesOf text := by
  rw [ofText, ByteArray.toList, toList_loop]
  rfl

/-- An argument is a text when its bytes are those of the text. -/
theorem text?_eq_some_iff {argument : Argument} {text : String} :
    argument.text? = some text ↔ argument = ofText text := by
  obtain ⟨bytes⟩ := argument
  constructor
  · intro h
    rw [text?, String.fromUTF8?] at h
    split at h
    next hvalid =>
      cases h
      refine congrArg Argument.mk ?_
      exact (bytes_ofText (String.fromUTF8 ⟨bytes.toArray⟩ hvalid)).symm
    next => cases h
  · intro h
    have hbytes : bytes = Transport.bytesOf text := by
      rw [← bytes_ofText, ← h]
    rw [hbytes]
    exact Transport.text?_bytesOf text

end Argument

/-! ## Flags -/

theorem ConfigFlag.ofText?_eq_some_iff {text : String} {flag : ConfigFlag} :
    ofText? text = some flag ↔ text = flag.text := by
  constructor
  · intro h
    rw [ofText?] at h
    exact (beq_iff_eq.mp (List.find?_some h :)).symm
  · rintro rfl
    cases flag with
    | configPath => decide +kernel
    | setting setting => cases setting <;> decide +kernel

namespace Argument

/-- A flag without a value. -/
def ofFlag (flag : ConfigFlag) : Argument := ofText flag.text

/-- A flag with its value behind an equals sign. -/
def attached (flag : ConfigFlag) (value : Argument) : Argument :=
  ⟨(ofFlag flag).bytes ++ equalsSign :: value.bytes⟩

/-- The argument is a flag of the configuration, with a value of its own or without one. -/
def IsFlag (argument : Argument) : Prop :=
  ∃ flag, argument = ofFlag flag ∨ ∃ value, argument = attached flag value

theorem equalsSign_notMem_ofFlag (flag : ConfigFlag) : equalsSign ∉ (ofFlag flag).bytes := by
  rw [ofFlag, bytes_ofText]
  cases flag with
  | configPath => decide +kernel
  | setting setting => cases setting <;> decide +kernel

theorem splitEquals_of_notMem {argument : Argument} (h : equalsSign ∉ argument.bytes) :
    argument.splitEquals = (argument, none) := by
  have hdrop : argument.bytes.dropWhile (· != equalsSign) = [] :=
    List.dropWhile_eq_nil_iff.mpr fun byte hbyte => by simpa using ne_of_mem_of_not_mem hbyte h
  rw [splitEquals, hdrop]

/-- **An argument is divided at its first equals sign.** -/
theorem splitEquals_append {name : Argument} (value : Argument) (h : equalsSign ∉ name.bytes) :
    splitEquals ⟨name.bytes ++ equalsSign :: value.bytes⟩ = (name, some value) := by
  have hname : ∀ byte ∈ name.bytes, (byte != equalsSign) = true := fun byte hbyte => by
    simpa using ne_of_mem_of_not_mem hbyte h
  rw [splitEquals, List.dropWhile_append_of_pos hname, List.takeWhile_append_of_pos hname]
  simp

/-- An argument has an equals sign or has none. -/
theorem equalsSign_cases (argument : Argument) :
    equalsSign ∉ argument.bytes ∨
      ∃ name value : Argument, equalsSign ∉ name.bytes ∧
        argument = ⟨name.bytes ++ equalsSign :: value.bytes⟩ := by
  by_cases hmem : equalsSign ∈ argument.bytes
  · obtain ⟨name, value, hbytes, hname⟩ := List.eq_append_cons_of_mem hmem
    exact .inr ⟨⟨name⟩, ⟨value⟩, hname, congrArg mk hbytes⟩
  · exact .inl hmem

theorem ofText?_text?_eq_some_iff {argument : Argument} {flag : ConfigFlag} :
    argument.text?.bind ConfigFlag.ofText? = some flag ↔ argument = ofFlag flag := by
  rw [Option.bind_eq_some_iff, ofFlag, ← text?_eq_some_iff]
  simp only [ConfigFlag.ofText?_eq_some_iff, exists_eq_right]

theorem role_ofFlag (flag : ConfigFlag) : (ofFlag flag).role = .needsValue := by
  have hflag := ofText?_text?_eq_some_iff.mpr (Eq.refl (ofFlag flag))
  rw [role, splitEquals_of_notMem (equalsSign_notMem_ofFlag flag)]
  simp only [hflag, Option.isSome_none, Bool.false_eq_true, if_false]

theorem role_attached (flag : ConfigFlag) (value : Argument) :
    (attached flag value).role = .complete := by
  have hflag := ofText?_text?_eq_some_iff.mpr (Eq.refl (ofFlag flag))
  rw [role, attached, splitEquals_append value (equalsSign_notMem_ofFlag flag)]
  simp only [hflag, Option.isSome_some, if_true]

theorem role_of_not_isFlag {argument : Argument} (h : ¬ argument.IsFlag) :
    argument.role = .other := by
  rcases equalsSign_cases argument with hmem | ⟨name, value, hname, rfl⟩
  · have hnone : argument.text?.bind ConfigFlag.ofText? = none :=
      Option.eq_none_iff_forall_ne_some.mpr fun flag hflag =>
        h ⟨flag, .inl (ofText?_text?_eq_some_iff.mp hflag)⟩
    rw [role, splitEquals_of_notMem hmem]
    simp only [hnone]
  · have hnone : name.text?.bind ConfigFlag.ofText? = none :=
      Option.eq_none_iff_forall_ne_some.mpr fun flag hflag =>
        h ⟨flag, .inr ⟨value, by rw [attached, ← ofText?_text?_eq_some_iff.mp hflag]⟩⟩
    rw [role, splitEquals_append value hname]
    simp only [hnone]

end Argument

/-! ## Runs of flags -/

/-- A flag with its value. -/
inductive GivenFlag where
  /-- The value stands behind an equals sign. -/
  | attached (flag : ConfigFlag) (value : Argument)
  /-- The value is the next argument. -/
  | followed (flag : ConfigFlag) (value : Argument)

/-- The arguments that a flag and its value are. -/
def GivenFlag.arguments : GivenFlag → List Argument
  | .attached flag value => [.attached flag value]
  | .followed flag value => [.ofFlag flag, value]

/-- Flags of the configuration. -/
structure FlagRun where
  /-- The flags with their values. -/
  given : List GivenFlag
  /-- A flag at the end that has no value. -/
  bare : Option ConfigFlag

/-- The arguments that flags are. -/
def FlagRun.arguments (run : FlagRun) : List Argument :=
  run.given.flatMap GivenFlag.arguments ++ run.bare.toList.map Argument.ofFlag

theorem FlagRun.arguments_cons (first : GivenFlag) (given : List GivenFlag)
    (bare : Option ConfigFlag) :
    FlagRun.arguments ⟨first :: given, bare⟩ =
      first.arguments ++ FlagRun.arguments ⟨given, bare⟩ := by
  rw [arguments, arguments, List.flatMap_cons, List.append_assoc]

/-- Arguments divided into flags of the configuration and a command. -/
structure Divides (arguments : List Argument) (run : FlagRun) (command : List Argument) :
    Prop where
  /-- Nothing is lost, moved or altered. -/
  whole : arguments = run.arguments ++ command
  /-- A flag lacks its value only where the arguments end. -/
  atEnd : run.bare.isSome → command = []
  /-- The command starts with something else than a flag. -/
  starts : ∀ first ∈ command.head?, ¬ first.IsFlag

/-- One more flag in front. -/
theorem Divides.cons {arguments command : List Argument} {run : FlagRun}
    (h : Divides arguments run command) (first : GivenFlag) :
    Divides (first.arguments ++ arguments) ⟨first :: run.given, run.bare⟩ command where
  whole := by rw [h.whole, FlagRun.arguments_cons, List.append_assoc]
  atEnd := h.atEnd
  starts := h.starts

/-- The flags alone are divided into themselves and no command. -/
theorem divides_flags (run : FlagRun) : Divides run.arguments run [] where
  whole := (List.append_nil _).symm
  atEnd := fun _ => rfl
  starts := nofun

/-- The command alone is divided into no flags and itself. -/
theorem Divides.command {arguments command : List Argument} {run : FlagRun}
    (h : Divides arguments run command) : Divides command ⟨[], none⟩ command where
  whole := rfl
  atEnd := nofun
  starts := h.starts

namespace SplitArguments

theorem divide_attached (flag : ConfigFlag) (value : Argument) (rest : List Argument) :
    divide (.attached flag value :: rest) =
      { divide rest with
        configuration := .attached flag value :: (divide rest).configuration } := by
  rw [divide.eq_def]
  simp only [Argument.role_attached]

theorem divide_followed (flag : ConfigFlag) (value : Argument) (rest : List Argument) :
    divide (.ofFlag flag :: value :: rest) =
      { divide rest with
        configuration := .ofFlag flag :: value :: (divide rest).configuration } := by
  rw [divide]
  simp only [Argument.role_ofFlag]

theorem divide_bare (flag : ConfigFlag) :
    divide [.ofFlag flag] = { configuration := [.ofFlag flag] } := by
  rw [divide]
  simp only [Argument.role_ofFlag]

theorem divide_of_starts {command : List Argument}
    (h : ∀ first ∈ command.head?, ¬ first.IsFlag) : divide command = { command } := by
  cases command with
  | nil => rfl
  | cons first rest =>
    rw [divide.eq_def]
    simp only [Argument.role_of_not_isFlag (h first rfl)]

/-- **The division that is described is the one that is made.** The induction is on the flags. -/
theorem divide_of_divides {arguments command : List Argument} {run : FlagRun}
    (h : Divides arguments run command) :
    divide arguments = { configuration := run.arguments, command } := by
  obtain ⟨rfl, hend, hstarts⟩ := h
  obtain ⟨given, bare⟩ := run
  induction given with
  | nil =>
    cases bare with
    | none => exact divide_of_starts hstarts
    | some flag =>
      rw [hend rfl]
      exact divide_bare flag
  | cons first given ih =>
    have hrest := ih hend
    rw [FlagRun.arguments_cons, List.append_assoc]
    cases first with
    | attached flag value =>
      rw [GivenFlag.arguments, List.singleton_append, divide_attached, hrest]
      rfl
    | followed flag value =>
      rw [GivenFlag.arguments, List.cons_append, List.singleton_append, divide_followed, hrest]
      rfl

/-- **Every list of arguments is divided so.** A flag takes its value with it, so what is left is
shorter by one or two. -/
theorem exists_divides : ∀ arguments : List Argument, ∃ run command, Divides arguments run command
  | [] => ⟨⟨[], none⟩, [], rfl, fun _ => rfl, nofun⟩
  | first :: rest => by
    by_cases hflag : first.IsFlag
    · obtain ⟨flag, rfl | ⟨value, rfl⟩⟩ := hflag
      · cases rest with
        | nil => exact ⟨⟨[], some flag⟩, [], rfl, fun _ => rfl, nofun⟩
        | cons value rest =>
          obtain ⟨run, command, h⟩ := exists_divides rest
          exact ⟨_, command, h.cons (.followed flag value)⟩
      · obtain ⟨run, command, h⟩ := exists_divides rest
        exact ⟨_, command, h.cons (.attached flag value)⟩
    · refine ⟨⟨[], none⟩, first :: rest, rfl, nofun, fun other hother => ?_⟩
      cases hother
      exact hflag

theorem ofArguments_of_divides (program : Argument) {rest command : List Argument} {run : FlagRun}
    (h : Divides rest run command) :
    ofArguments (program :: rest) =
      { configuration := program :: run.arguments, command := program :: command } := by
  rw [ofArguments, divide_of_divides h]

/-- **Dividing a command line loses nothing and is stable.** Both parts start with the name of the
program. Behind it stand, in order, exactly the arguments behind it: first flags of the
configuration, each with its value behind an equals sign or as the next argument, and without one
only where the arguments end; then the command, which does not start with such a flag. No other
division is like this. The first part divided again is itself without a command, and the second part
is itself without flags. -/
theorem ofArguments_divides (program : Argument) (rest : List Argument) :
    ∃ run command, Divides rest run command ∧
      ofArguments (program :: rest) =
        { configuration := program :: run.arguments, command := program :: command } ∧
      (∀ run' command', Divides rest run' command' →
        run'.arguments = run.arguments ∧ command' = command) ∧
      ofArguments (program :: run.arguments) =
        { configuration := program :: run.arguments, command := [program] } ∧
      ofArguments (program :: command) =
        { configuration := [program], command := program :: command } := by
  obtain ⟨run, command, h⟩ := exists_divides rest
  refine ⟨run, command, h, ofArguments_of_divides program h, fun run' command' h' => ?_,
    ofArguments_of_divides program (divides_flags run), ofArguments_of_divides program h.command⟩
  have hsame := (divide_of_divides h').symm.trans (divide_of_divides h)
  exact SplitArguments.mk.inj hsame

example :
    let command (words : List String) : List Argument := words.map fun w => ⟨Transport.bytesOf w⟩
    ofArguments (command ["run", "--server-host", "--log-filter=x", "--log-format=", "stop",
        "--server-port=1"]) =
      { configuration := command ["run", "--server-host", "--log-filter=x", "--log-format="],
        command := command ["run", "stop", "--server-port=1"] } := by
  decide +kernel

end SplitArguments

end CavityConsole

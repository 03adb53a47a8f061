import CavityConsole.Console.Command
import CavityConsole.Proofs.Job.Wire
import CavityConsole.Proofs.Transport.Frames
import CavityConsole.Protocol.Document

/-!
# Outgoing commands survive the wire

A command goes out as its line and a newline. The line is the text of an object, so it is read back
as a document (`Described`), and it holds no control character, so the newline behind it is the
only one.

**The law** (`frames_sent`): for every list of commands, framing what was sent for them gives their
lines again, one frame for each command, wherever the stream is cut; and every line is read as a
document that says what its command says.
-/

namespace CavityConsole.Command

open Json Transport

/-- The members of a document that a command carries besides its name. -/
def Carries : Command → Members → Prop
  | .start job, members => ∃ value, job.Described value ∧ members = [("job", value)]
  | .applyCorrections results, members =>
    members = [("results", .array (results.map fun id => .number (.integer id.value.toNat)))]
  | _, members => members = []

/-- What a command is as a document: its name and what it carries, and no other members. -/
def Described (command : Command) (document : Document) : Prop :=
  ∃ members, command.Carries members ∧
    document = ("command", .string command.name) :: members

/-! ## The line of a command -/

theorem fragment_resultId (depth : Nat) (id : ResultId) :
    Fragment depth id.text (.number (.integer id.value.toNat)) := by
  have htext : id.text = Decimal.integerText id.value.toNat := by
    rw [ResultId.text, Decimal.integerText, if_neg (by omega), Int.natAbs_natCast]
  have hhigh := id.value.toNat_lt
  rw [htext]
  exact fragment_integer depth (by simp [UInt64.size]) (by simp [UInt64.size]; omega)

/-- What a command carries is written as members that stand for it. -/
theorem fragment_payload (depth : Nat) (command : Command) :
    ∃ members, command.Carries members ∧
      List.Forall₂ (NamedFragment (depth + 2)) command.payload members := by
  cases command with
  | start job =>
    obtain ⟨value, hdescribed, hvalue⟩ := Job.fragment_wireText depth job
    exact ⟨_, ⟨value, hdescribed, rfl⟩, .cons ⟨rfl, hvalue⟩ .nil⟩
  | applyCorrections results =>
    exact ⟨_, rfl, .cons ⟨rfl, fragment_items (fragment_resultId (depth + 1)) results⟩ .nil⟩
  | version => exact ⟨[], rfl, .nil⟩
  | cavities => exact ⟨[], rfl, .nil⟩
  | pause => exact ⟨[], rfl, .nil⟩
  | resume => exact ⟨[], rfl, .nil⟩
  | stop => exact ⟨[], rfl, .nil⟩
  | skip => exact ⟨[], rfl, .nil⟩

/-- The name of a command comes first. -/
theorem ofList_carried {command : Command} {members : Members} (h : command.Carries members)
    (name : Json) :
    Members.ofList (("command", name) :: members) = ("command", name) :: members := by
  have hinsert : ∀ key value, ¬ key < "command" → key ≠ "command" →
      Members.ofList [("command", name), (key, value)] = [("command", name), (key, value)] := by
    intro key value hbefore hsame
    simp only [Members.ofList, Members.insert, List.foldl_cons, List.foldl_nil, if_neg hbefore,
      if_neg hsame]
  cases command with
  | start job =>
    obtain ⟨value, -, rfl⟩ := h
    exact hinsert "job" value (by decide) (by decide)
  | applyCorrections results =>
    cases h
    exact hinsert "results" _ (by decide) (by decide)
  | version => cases h; rfl
  | cavities => cases h; rfl
  | pause => cases h; rfl
  | resume => cases h; rfl
  | stop => cases h; rfl
  | skip => cases h; rfl

/-- The line of a command stands for a document that describes it. -/
theorem fragment_line (command : Command) :
    ∃ document, command.Described document ∧
      Fragment maxDepth command.line.toList (.object document) := by
  obtain ⟨members, hcarries, hmembers⟩ := fragment_payload 124 command
  refine ⟨_, ⟨members, hcarries, rfl⟩, ?_⟩
  rw [line, String.toList_ofList, ← ofList_carried hcarries]
  exact fragment_object (.cons ⟨rfl, fragment_string 126 command.name⟩ hmembers)

theorem plain_line (command : Command) : ∀ byte ∈ bytesOf command.line, 0x20 ≤ byte.toNat := by
  obtain ⟨document, -, hline⟩ := command.fragment_line
  exact plain_bytesOf hline.plain

theorem ofLine_line (command : Command) :
    ∃ document, command.Described document ∧ Document.ofLine command.line = .ok document := by
  obtain ⟨document, hdescribed, hline⟩ := command.fragment_line
  have hparse := hline.parse
  rw [String.ofList_toList] at hparse
  refine ⟨document, hdescribed, ?_⟩
  rw [Document.ofLine, hparse]

/-! ## The stream of commands -/

theorem sent_eq (command : Command) :
    command.sent.data.toList = bytesOf command.line ++ [newline] := by
  have hbytes : command.sent.data.toList = bytesOf (command.line ++ "\n") := rfl
  rw [hbytes, bytesOf_eq, bytesOf_eq, String.toList_append, List.flatMap_append]
  rfl

/-- **Every outgoing command survives the wire.** The frames of what was sent for a list of commands
are their lines, one for each command and nothing behind the last, whatever the pieces in which the
stream arrives. A line holds no control character; taken as an inbound line it is a document with
the name of the command, and the identifiers or the job that the command carries. -/
theorem frames_sent (commands : List Command) (limit : Nat) (reads : List Read)
    (calm : Undisturbed reads)
    (hcontent : content reads = commands.flatMap fun command => command.sent.data.toList)
    (hlimit : ∀ command ∈ commands, command.line.utf8ByteSize ≤ limit) :
    frames limit reads = (commands.map fun command => bytesOf command.line, .ended) ∧
      ∀ command ∈ commands,
        (∀ byte ∈ bytesOf command.line, 0x20 ≤ byte.toNat) ∧
          text? (stripReturn (bytesOf command.line)) = some command.line ∧
          ∃ document, command.Described document ∧
            Document.ofLine command.line = .ok document := by
  refine ⟨?_, fun command _ => ⟨command.plain_line, ?_, command.ofLine_line⟩⟩
  · refine frames_joined calm ?_ ?_ ?_
    · rw [hcontent, List.flatMap_map]
      exact List.flatMap_congr fun command _ => command.sent_eq
    · intro line hline hnewline
      obtain ⟨command, -, rfl⟩ := List.mem_map.mp hline
      exact absurd (command.plain_line newline hnewline) (by decide)
    · intro line hline
      obtain ⟨command, hcommand, rfl⟩ := List.mem_map.mp hline
      exact hlimit command hcommand
  · rw [stripReturn_of_plain command.plain_line, text?_bytesOf]

/-- Commands with a limit that is not finite, names with a quote and a newline in them, and a result
named twice. -/
def awkward : List Command :=
  [.start
    { correct := true, continuous := false, maxPhaseError := Binary.ofRatio true 3 2,
      maxMomentumError := Binary.infinite false, kickSamples := -7,
      cavities := .ofList ["\"", "a\nb"] },
   .version, .applyCorrections [⟨7⟩, ⟨7⟩]]

/-- What is sent for them, cut within the first name. -/
def awkwardReads : List Read :=
  [.bytes ((awkward.flatMap (·.sent.data.toList)).take 9), .interrupted,
   .bytes ((awkward.flatMap (·.sent.data.toList)).drop 9)]

theorem frames_sent_awkward :
    (∀ command ∈ awkward, command.line.utf8ByteSize ≤ 153) ∧
      frames 153 awkwardReads =
        (["\x7b\"command\":\"start\",\"job\":\x7b\"correct\":true,\"continuous\":false," ++
            "\"max-phase-error\":-1.5,\"max-momentum-error\":null,\"kick-samples\":-7," ++
            "\"cavities\":[\"\\\"\",\"a\\nb\"]\x7d\x7d",
          "\x7b\"command\":\"version\"\x7d",
          "\x7b\"command\":\"apply-corrections\",\"results\":[7,7]\x7d"].map bytesOf,
         .ended) := by
  have calm : Undisturbed awkwardReads := by intro reason; simp [awkwardReads]
  have hcontent : content awkwardReads = awkward.flatMap (·.sent.data.toList) := by
    show _ ++ (_ ++ []) = _
    rw [List.append_nil, List.take_append_drop]
  have hlimit : ∀ command ∈ awkward, command.line.utf8ByteSize ≤ 153 := by decide +kernel
  refine ⟨hlimit, ?_⟩
  rw [(frames_sent awkward 153 awkwardReads calm hcontent hlimit).1]
  refine congrArg (·, FrameResult.ended) ?_
  decide +kernel

end CavityConsole.Command

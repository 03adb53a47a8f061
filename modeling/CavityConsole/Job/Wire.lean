import CavityConsole.Job.Basic
import CavityConsole.Json.Mismatch

/-!
# Jobs on the wire

A job travels as an object of six members. The line that starts a job writes them in a fixed order
and each limit with the digits that tell 32-bit values apart; a limit that is not finite is written
as `null`. The server's own jobs are read back from a document, where the members come in the order
of their keys and numbers are 64-bit values.

A list of the six values in the fixed order is read as a job too.
-/

namespace CavityConsole.Job

/-- 32-bit values on the wire: positional from `0.000001` up to thirteen digits before the point. -/
def limitLayout : Decimal.Layout := ⟨-6, 12⟩

/-- A limit on the wire. -/
def limitText (x : Single) : List Char :=
  if x.isFinite then limitLayout.text x else Json.nullText

/-- The compact text of a job, its members in their fixed order. -/
def wireText (job : Job) : List Char :=
  Json.objectText
    [("correct", Json.booleanText job.correct),
     ("continuous", Json.booleanText job.continuous),
     ("max-phase-error", limitText job.maxPhaseError),
     ("max-momentum-error", limitText job.maxMomentumError),
     ("kick-samples", Decimal.integerText job.kickSamples.toInt),
     ("cavities", Json.arrayText (job.cavities.names.map Json.stringText))]

/-- A limit as a value of a document. -/
def limitToJson (x : Single) : Json :=
  if x.isFinite then .number (.real (x.convert Binary.Format.double)) else .null

/-- A job as a value of a document. -/
def toJson (job : Job) : Json :=
  .object <| Members.ofList
    [("correct", .boolean job.correct),
     ("continuous", .boolean job.continuous),
     ("max-phase-error", limitToJson job.maxPhaseError),
     ("max-momentum-error", limitToJson job.maxMomentumError),
     ("kick-samples", .number (.integer job.kickSamples.toInt)),
     ("cavities", .array (job.cavities.names.map .string))]

/-! ## Reading -/

/-- The first element of a list and the others; `index` elements have been taken before. -/
def element {α : Type} (read : Json → Except Json.Mismatch α) (index : Nat) :
    List Json → Except Json.Mismatch (α × List Json)
  | [] => .error (.wrongLength index "struct JobWire with 6 elements")
  | value :: rest => (read value).map fun a => (a, rest)

/-- A job from a list of its values. -/
def ofElements (values : List Json) : Except Json.Mismatch Job := do
  let (correct, rest) ← element Json.readBoolean 0 values
  let (continuous, rest) ← element Json.readBoolean 1 rest
  let (maxPhaseError, rest) ← element Json.readSingle 2 rest
  let (maxMomentumError, rest) ← element Json.readSingle 3 rest
  let (kickSamples, rest) ← element Json.readInt32 4 rest
  let (cavities, rest) ← element Json.readStrings 5 rest
  if rest.isEmpty then
    return {
      correct, continuous, maxPhaseError, maxMomentumError, kickSamples,
      cavities := .ofList cavities }
  else throw (.wrongLength values.length "fewer elements in array")

/-- A member that may be absent. -/
def optionalMember {α : Type} (read : Json → Except Json.Mismatch α) (members : Members)
    (name : String) : Except Json.Mismatch (Option α) :=
  match members.get? name with
  | none => .ok none
  | some value => (read value).map some

/-- A member that has to be there. -/
def required {α : Type} (name : String) : Option α → Except Json.Mismatch α
  | none => .error (.missingField name)
  | some a => .ok a

/-- A job from the members of an object. The members that are there are read in the order of their
keys; only then are missing ones looked for, in their fixed order. -/
def ofMembers (members : Members) : Except Json.Mismatch Job := do
  let cavities ← optionalMember Json.readStrings members "cavities"
  let continuous ← optionalMember Json.readBoolean members "continuous"
  let correct ← optionalMember Json.readBoolean members "correct"
  let kickSamples ← optionalMember Json.readInt32 members "kick-samples"
  let maxMomentumError ← optionalMember Json.readSingle members "max-momentum-error"
  let maxPhaseError ← optionalMember Json.readSingle members "max-phase-error"
  return {
    correct := ← required "correct" correct
    continuous := ← required "continuous" continuous
    maxPhaseError := ← required "max-phase-error" maxPhaseError
    maxMomentumError := ← required "max-momentum-error" maxMomentumError
    kickSamples := ← required "kick-samples" kickSamples
    cavities := .ofList (← required "cavities" cavities) }

/-- A job from a value of a document. -/
def ofJson : Json → Except Json.Mismatch Job
  | .object members => ofMembers members
  | .array values => ofElements values
  | other => .error (.wrongType other.found "struct JobWire")

/-- Whether a job written as a value and read back is the same job. -/
def survivesJson (job : Job) : Bool :=
  match ofJson job.toJson with
  | .ok back => back.sameParameters job
  | .error _ => false

end CavityConsole.Job

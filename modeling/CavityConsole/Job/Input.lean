import CavityConsole.Decimal.Reading
import CavityConsole.Job.Basic
import CavityConsole.Text.Blank
import CavityConsole.Text.Integer

/-!
# Jobs as typed by an operator

An operator types the three numbers of a job as text. They are checked in a fixed order, the phase
error first, then the momentum error and its range, then the samples and at last the cavities; the
first check that fails is the one reported.
-/

namespace CavityConsole.Job

/-- The smallest maximum momentum error that the server accepts. -/
def leastMomentumError : Single := Binary.ofRatio false 1 10000000

/-- The largest maximum momentum error that the server accepts. -/
def greatestMomentumError : Single := Binary.ofNat 1

/-- What an operator typed. -/
structure Input where
  /-- Apply corrections rather than only measure. -/
  correct : Bool := false
  /-- Start over until stopped. -/
  continuous : Bool := false
  /-- The maximum phase error. -/
  maxPhaseError : String := ""
  /-- The maximum momentum error. -/
  maxMomentumError : String := ""
  /-- The samples per kick. -/
  kickSamples : String := ""
  /-- The cavities in the order chosen. -/
  cavities : List String := []

/-- The fields that hold a number. -/
inductive Field where
  /-- The maximum phase error. -/
  | maxPhaseError
  /-- The maximum momentum error. -/
  | maxMomentumError
  /-- The samples per kick. -/
  | kickSamples
deriving DecidableEq, Repr

/-- The name of a field as operators know it. -/
def Field.label : Field → String
  | .maxPhaseError => "Max Phase Error"
  | .maxMomentumError => "Max Momentum Error"
  | .kickSamples => "Kick Samples"

/-- Why what was typed is no job. -/
inductive InputError where
  /-- A field was left blank. -/
  | empty (field : Field)
  /-- A field is not a finite number. -/
  | notANumber (field : Field)
  /-- A field is not a whole number, or too large a one. -/
  | notAnInteger (field : Field)
  /-- The momentum error is outside the range that the server accepts. -/
  | momentumErrorOutOfRange (value : Single)
  /-- No cavity was chosen. -/
  | noCavities
deriving DecidableEq

/-- The wording of an error. -/
def InputError.message : InputError → String
  | .empty field => field.label ++ " must not be empty"
  | .notANumber field => field.label ++ " must be a number"
  | .notAnInteger field => field.label ++ " must be an integer"
  | .momentumErrorOutOfRange _ => "Max Momentum Error must be between 0.0000001 and 1"
  | .noCavities => "No cavities have been selected"

/-- A field without the white space around it; it must not be blank. -/
def requireText (field : Field) (text : String) : Except InputError (List Char) :=
  let trimmed := Text.trim text.toList
  if trimmed.isEmpty then .error (.empty field) else .ok trimmed

/-- A finite number. -/
def readLimit (field : Field) (text : String) : Except InputError Single := do
  let trimmed ← requireText field text
  match Decimal.read Binary.Format.single trimmed with
  | some x => if x.isFinite then .ok x else .error (.notANumber field)
  | none => .error (.notANumber field)

/-- A whole number that fits 32 bits with a sign. -/
def readSamples (text : String) : Except InputError Int32 := do
  let trimmed ← requireText .kickSamples text
  match Text.readInt 32 trimmed with
  | .ok i => .ok (Int32.ofInt i)
  | .error _ => .error (.notAnInteger .kickSamples)

/-- Whether the server accepts a momentum error. -/
def acceptsMomentumError (x : Single) : Bool :=
  leastMomentumError.le x && x.le greatestMomentumError

/-- The job that an operator typed. -/
def ofInput (input : Input) : Except InputError Job := do
  let maxPhaseError ← readLimit .maxPhaseError input.maxPhaseError
  let maxMomentumError ← readLimit .maxMomentumError input.maxMomentumError
  if !acceptsMomentumError maxMomentumError then
    throw (.momentumErrorOutOfRange maxMomentumError)
  let kickSamples ← readSamples input.kickSamples
  if input.cavities.isEmpty then throw .noCavities
  return {
    correct := input.correct
    continuous := input.continuous
    maxPhaseError, maxMomentumError, kickSamples
    cavities := .ofList input.cavities }

end CavityConsole.Job

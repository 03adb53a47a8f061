import CavityConsole.Notification.Basic

/-!
# Notifications from documents

A document with a `notification` member is read field by field in a fixed order, and the first field
that is set but not acceptable is reported. A field is unset when it is absent or `null`. Where no
job is set, the fields that belong to a job are not looked at.
-/

namespace CavityConsole

/-- The type that a field should have. -/
inductive Notification.FieldType where
  /-- A string. -/
  | string
  /-- A truth value. -/
  | boolean
  /-- A whole number. -/
  | integer
deriving DecidableEq, Repr

/-- The wording of a field's type. -/
def Notification.FieldType.text : Notification.FieldType → String
  | .string => "a string"
  | .boolean => "a boolean"
  | .integer => "an integer"

/-- Why a document is no notification. -/
inductive NotificationError where
  /-- The type of notification is unset. -/
  | missingType
  /-- There is no such type of notification. -/
  | unknownType (kind : String)
  /-- A field has another type. -/
  | wrongType (field : String) (expected : Notification.FieldType) (found : String)
  /-- A number is not whole, or does not fit its field. -/
  | invalidInteger (field : String) (value : Json.Number)
  /-- A string is no time. -/
  | invalidTimestamp (field : String)
  /-- The job is no job. -/
  | invalidJob (mismatch : Json.Mismatch)
deriving DecidableEq

namespace NotificationError

/-- The wording of an error. -/
def message : NotificationError → String
  | .missingType => "document carries no notification type"
  | .unknownType kind => "unrecognised notification type '" ++ kind ++ "'"
  | .wrongType field expected found =>
    "field '" ++ field ++ "' should be " ++ expected.text ++ ", found " ++ found
  | .invalidInteger field value =>
    "field '" ++ field ++ "' holds " ++ String.ofList value.text ++
      ", which is not a valid integer here"
  | .invalidTimestamp field => "field '" ++ field ++ "' is not a valid timestamp"
  | .invalidJob _ => "invalid job description"

/-- Whether the only problem is a type that is not known. -/
def isUnknownType : NotificationError → Bool
  | .unknownType _ => true
  | _ => false

end NotificationError

namespace Notification

/-- The value of a field that is set. -/
def field? (document : Document) (field : String) : Option Json :=
  (Members.get? document field).filter fun value => !value.isNull

/-- A field that holds a string. -/
def stringField (document : Document) (field : String) : Except NotificationError (Option String) :=
  match field? document field with
  | none => .ok none
  | some (.string s) => .ok (some s)
  | some other => .error (.wrongType field .string other.typeName)

/-- A field that holds a truth value. -/
def booleanField (document : Document) (field : String) : Except NotificationError (Option Bool) :=
  match field? document field with
  | none => .ok none
  | some (.boolean b) => .ok (some b)
  | some other => .error (.wrongType field .boolean other.typeName)

/-- A field that holds a whole number of a signed range. A number with a fraction or an exponent is
not whole, whatever its value. -/
def integerField (document : Document) (field : String) (low high : Int) :
    Except NotificationError (Option Int) :=
  match field? document field with
  | none => .ok none
  | some (.number (.integer i)) =>
    if low ≤ i ∧ i ≤ high then .ok (some i) else .error (.invalidInteger field (.integer i))
  | some (.number (.real x)) => .error (.invalidInteger field (.real x))
  | some other => .error (.wrongType field .integer other.typeName)

/-- A field that holds a whole number of 64 bits with a sign. -/
def int64Field (document : Document) (field : String) : Except NotificationError (Option Int64) :=
  (integerField document field Int64.minValue.toInt Int64.maxValue.toInt).map
    (Option.map Int64.ofInt)

/-- A field that holds a whole number of 32 bits with a sign. -/
def int32Field (document : Document) (field : String) : Except NotificationError (Option Int32) :=
  (integerField document field Int32.minValue.toInt Int32.maxValue.toInt).map
    (Option.map Int32.ofInt)

/-- A field that holds a time. -/
def timestampField (document : Document) (field : String) :
    Except NotificationError (Option Timestamp) := do
  let text? ← stringField document field
  match text? with
  | none => return none
  | some text =>
    match Timestamp.parse? text with
    | some t => return some t
    | none => throw (.invalidTimestamp field)

/-- A report on a job; without a job nothing else is read. -/
def jobOfDocument (document : Document) : Except NotificationError (Option JobReport) :=
  match field? document "job" with
  | none => .ok none
  | some value =>
    match Job.ofJson value with
    | .error mismatch => .error (.invalidJob mismatch)
    | .ok current => do
      let id ← int64Field document "job-id"
      let start ← timestampField document "start"
      let paused ← booleanField document "paused"
      let loop ← int32Field document "loop"
      let cavity ← stringField document "cavity"
      let cavityStart ← timestampField document "cavity-start"
      let progress ← int32Field document "progress"
      let label ← stringField document "label"
      return some { job := current, id, start, paused, loop, cavity, cavityStart, progress, label }

/-- The notification of a given kind in a document. -/
def ofKind (document : Document) (kind : String) : Except NotificationError Notification :=
  match kind with
  | "status" => do
    let message ← stringField document "message"
    let error ← booleanField document "error"
    return .status message error
  | "job" => (jobOfDocument document).map .job
  | "paused" => (booleanField document "paused").map .paused
  | "loop" => (int32Field document "count").map .loop
  | "cavity" => do
    let name ← stringField document "name"
    let start ← timestampField document "start"
    return .cavity name start
  | "progress" => do
    let value ← int32Field document "value"
    let label ← stringField document "label"
    return .progress value label
  | _ => .error (.unknownType kind)

/-- The notification in a document. -/
def ofDocument (document : Document) : Except NotificationError Notification := do
  let kind? ← stringField document "notification"
  match kind? with
  | none => throw .missingType
  | some kind => ofKind document kind

end Notification

end CavityConsole

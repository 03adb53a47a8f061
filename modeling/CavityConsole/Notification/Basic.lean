import CavityConsole.Job.Wire
import CavityConsole.Time.Timestamp

/-!
# Notifications

The server reports what happens without being asked. Every field of a notification may be missing,
and a missing field stays missing: zero progress and an empty label are values of their own.

The fields that belong to a job exist only beside a job. A `JobReport` holds them together with it,
so a report that no job is running carries nothing else.
-/

namespace CavityConsole

/-- A job that the server has, and what it says about it. -/
structure JobReport where
  /-- The job. -/
  job : Job
  /-- The number the server gave it. -/
  id : Option Int64 := none
  /-- When it started. -/
  start : Option Timestamp := none
  /-- Whether it is paused. -/
  paused : Option Bool := none
  /-- The current pass over the cavities. -/
  loop : Option Int32 := none
  /-- The cavity being worked on. -/
  cavity : Option String := none
  /-- When work on that cavity began. -/
  cavityStart : Option Timestamp := none
  /-- The progress on that cavity, in percent. -/
  progress : Option Int32 := none
  /-- What is being done. -/
  label : Option String := none
deriving DecidableEq

/-- What a notification about the current job says in one of the fields: nothing without a job. -/
def JobReport.said {α : Type} (field : JobReport → Option α) (report : Option JobReport) :
    Option α :=
  report.bind field

/-- A notification of the server. -/
inductive Notification where
  /-- A message, flagged as an error or not. -/
  | status (message : Option String) (error : Option Bool)
  /-- The current job, or that there is none. -/
  | job (report : Option JobReport)
  /-- The job was paused or resumed. -/
  | paused (state : Option Bool)
  /-- A continuous job started over. -/
  | loop (count : Option Int32)
  /-- The job moved on to a cavity. -/
  | cavity (name : Option String) (start : Option Timestamp)
  /-- Progress on the current cavity. -/
  | progress (value : Option Int32) (label : Option String)
deriving DecidableEq

namespace Notification

/-- A status that reports an error. -/
def errorStatus (message : String) : Notification := .status (some message) (some true)

/-- That no job is running. -/
def idle : Notification := .job none

/-- The name of the kind of notification, on the wire as well. -/
def kind : Notification → String
  | .status .. => "status"
  | .job _ => "job"
  | .paused _ => "paused"
  | .loop _ => "loop"
  | .cavity .. => "cavity"
  | .progress .. => "progress"

/-! ## Text -/

/-- A field, or a dash where it is missing. -/
def fieldPieces {α : Type} (pieces : α → List String) : Option α → List String
  | none => ["-"]
  | some a => pieces a

/-- A truth value. -/
def booleanText (b : Bool) : String := if b then "true" else "false"

/-- A whole number; a minus sign is a piece of its own. -/
def integerPieces (i : Int) : List String :=
  let digits := String.ofList (Decimal.digitText i.natAbs)
  if i < 0 then ["-", digits] else [digits]

/-- The pieces in which a job report is written. -/
def reportPieces (report : JobReport) : List String :=
  ["job id="] ++ fieldPieces (fun i => integerPieces i.toInt) report.id ++
  [" start="] ++ fieldPieces (fun t => [t.text]) report.start ++
  [" paused="] ++ fieldPieces (fun b => [booleanText b]) report.paused ++
  [" loop="] ++ fieldPieces (fun i => integerPieces i.toInt) report.loop ++
  [" cavity="] ++ fieldPieces (fun s => [s]) report.cavity ++
  [" cavity-start="] ++ fieldPieces (fun t => [t.text]) report.cavityStart ++
  [" progress="] ++ fieldPieces (fun i => integerPieces i.toInt) report.progress ++
  [" label="] ++ fieldPieces (fun s => [s]) report.label ++
  [" cavities="] ++ integerPieces report.job.cavities.size

/-- The pieces in which a notification is written. Strings of the server stand among them as they
are. -/
def pieces : Notification → List String
  | .status message error =>
    ["status message="] ++ fieldPieces (fun s => [s]) message ++
      [" error="] ++ fieldPieces (fun b => [booleanText b]) error
  | .job none => ["job none"]
  | .job (some report) => reportPieces report
  | .paused state => ["paused "] ++ fieldPieces (fun b => [booleanText b]) state
  | .loop count => ["loop "] ++ fieldPieces (fun i => integerPieces i.toInt) count
  | .cavity name start =>
    ["cavity name="] ++ fieldPieces (fun s => [s]) name ++
      [" start="] ++ fieldPieces (fun t => [t.text]) start
  | .progress value label =>
    ["progress value="] ++ fieldPieces (fun i => integerPieces i.toInt) value ++
      [" label="] ++ fieldPieces (fun s => [s]) label

/-- A notification as text. -/
def text (notification : Notification) : String := String.join notification.pieces

instance : ToString Notification := ⟨text⟩

end Notification

end CavityConsole

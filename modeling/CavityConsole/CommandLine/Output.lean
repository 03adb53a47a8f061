import CavityConsole.CommandLine.Request
import CavityConsole.Job.CavityList
import CavityConsole.Notification.Basic

/-!
# Output

Output is written piece by piece, and a place to write to may be full. A piece that does not fit is
not written at all, while the pieces before it stay.
-/

namespace CavityConsole

/-- The end of a place to write to. -/
structure OutputLimit where
  /-- How many bytes there is room for. -/
  bytes : Nat
  /-- Why nothing can be written beyond. -/
  reason : String
deriving DecidableEq, Repr

/-- A place to write to, and what is written there. -/
structure Output where
  /-- What is written, piece by piece, in reverse. -/
  pieces : List String := []
  /-- The end of the place, if it has one. -/
  limit : Option OutputLimit := none
deriving DecidableEq

namespace Output

/-- What is written. -/
def text (output : Output) : String := String.join output.pieces.reverse

/-- Writes a piece. -/
def writePiece (output : Output) (piece : String) : Output × Except String Unit :=
  let written := { output with pieces := piece :: output.pieces }
  match output.limit with
  | none => (written, .ok ())
  | some limit =>
    if piece.isEmpty ∨ written.text.utf8ByteSize ≤ limit.bytes then (written, .ok ())
    else (output, .error limit.reason)

/-- Writes pieces up to the first one that cannot be written. -/
def write (output : Output) : List String → Output × Except String Unit
  | [] => (output, .ok ())
  | piece :: rest =>
    match output.writePiece piece with
    | (output, .ok ()) => output.write rest
    | (output, .error reason) => (output, .error reason)

end Output

/-! ## What requests print -/

/-- A number in decimal. -/
def countText (n : Nat) : String := String.ofList (Decimal.digitText n)

/-- A version on a line. -/
def versionPieces (version : String) : List String := [version, "\n"]

/-- Cavities, one a line. -/
def cavityPieces (cavities : CavityList) : List String :=
  cavities.names.flatMap fun name => [name, "\n"]

/-- That a job was started. -/
def startedPieces (job : Job) : List String :=
  ["started job on ", countText job.cavities.size, " cavities\n"]

/-- That a command was accepted. -/
def acceptedPieces (command : String) : List String := [command, ": ok\n"]

/-- That corrections were applied. -/
def appliedPieces (results : List ResultId) : List String :=
  ["applied corrections from ", countText results.length, " results\n"]

/-- Notifications, one a line. -/
def notificationPieces (notifications : List Notification) : List String :=
  notifications.flatMap fun notification => notification.pieces ++ ["\n"]

end CavityConsole

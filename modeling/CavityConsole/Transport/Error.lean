import CavityConsole.Protocol.Document

/-!
# How a connection fails

Reading from a connection ends for good when the server is done or when something arrives that the
reader cannot take. The line that could not be decoded keeps the reason.
-/

namespace CavityConsole

/-- Why reading from a connection failed. -/
inductive TransportError where
  /-- A read failed. -/
  | io (reason : String)
  /-- A line exceeds the limit. -/
  | lineTooLong (limit : Nat)
  /-- A line is not UTF-8. -/
  | invalidUtf8
  /-- A line is no document. -/
  | undecodable (error : DecodeError)
deriving DecidableEq

/-- The wording of a failure. -/
def TransportError.message : TransportError → String
  | .io reason => "failed to read from phaser server: " ++ reason
  | .lineTooLong limit =>
    "server sent a line longer than " ++ String.ofList (Decimal.digitText limit) ++ " bytes"
  | .invalidUtf8 => "server sent a line that is not valid UTF-8"
  | .undecodable _ => "server sent an undecodable line"

/-- How reading from a connection ended. -/
inductive ReaderExit where
  /-- The server closed the connection, or it was shut down here. -/
  | closed
  /-- Something arrived that cannot be taken. -/
  | failed (error : TransportError)
  /-- A listener broke down. -/
  | brokenDown
deriving DecidableEq

/-- Whether a connection ended without an error. -/
def ReaderExit.isClean : ReaderExit → Bool
  | .closed => true
  | _ => false

end CavityConsole

import CavityConsole.Json.Parser

/-!
# Inbound lines as documents

The server sends one JSON object per line. A line that is something else cannot be made sense of and
ends the connection.
-/

namespace CavityConsole

/-- Why a line is no document. -/
inductive DecodeError where
  /-- The line is no JSON. -/
  | malformed (fault : Json.Fault)
  /-- The line is JSON but no object; the type of its value is kept. -/
  | notAnObject (typeName : String)
deriving DecidableEq

/-- The wording of a line that is no document. -/
def DecodeError.message : DecodeError → String
  | .malformed fault => "malformed JSON message: " ++ fault.message
  | .notAnObject typeName => "expected a JSON object, found " ++ typeName

/-- The document on a line. -/
def Document.ofLine (line : String) : Except DecodeError Document :=
  match Json.parse line with
  | .error fault => .error (.malformed fault)
  | .ok (.object members) => .ok members
  | .ok other => .error (.notAnObject other.typeName)

end CavityConsole

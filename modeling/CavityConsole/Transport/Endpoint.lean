import CavityConsole.Decimal.Shortest
import CavityConsole.Text.Integer

/-!
# Server endpoints

An endpoint is a host and a port. Its text is `tcp://host:port`. Read back, `tcp://` may be missing,
the last colon divides host from port, and brackets around the host are left aside. What the host
is, a name or an address, is not looked at.
-/

namespace CavityConsole

/-- Where a server is. -/
structure Endpoint where
  /-- The name or address of the host. -/
  host : String
  /-- The port. -/
  port : UInt16
deriving DecidableEq, Repr

/-- Why a text is no endpoint. The text is kept. -/
inductive EndpointError where
  /-- There is no host. -/
  | missingHost (text : String)
  /-- There is no colon in front of a port. -/
  | missingPort (text : String)
  /-- The port is not a number from 0 to 65535. -/
  | invalidPort (text : String)
deriving DecidableEq, Repr

/-- The wording of an error. -/
def EndpointError.message : EndpointError → String
  | .missingHost text => "missing server host in '" ++ text ++ "'"
  | .missingPort text => "missing server port in '" ++ text ++ "'"
  | .invalidPort text => "invalid server port in '" ++ text ++ "'"

namespace Endpoint

/-- The characters in front of a host. -/
def scheme : List Char := ['t', 'c', 'p', ':', '/', '/']

/-- The text of an endpoint. -/
def text (endpoint : Endpoint) : String :=
  String.ofList
    (scheme ++ endpoint.host.toList ++ ':' :: Decimal.digitText endpoint.port.toNat)

instance : ToString Endpoint := ⟨text⟩

/-- A text without the scheme in front of it, if it is there. -/
def dropScheme (cs : List Char) : List Char :=
  if scheme.isPrefixOf cs then cs.drop scheme.length else cs

/-- What stands before and behind the last colon. -/
def splitLastColon : List Char → Option (List Char × List Char)
  | [] => none
  | c :: rest =>
    match splitLastColon rest with
    | some (before, behind) => some (c :: before, behind)
    | none => if c = ':' then some ([], rest) else none

/-- A host without brackets around it. -/
def dropBrackets (host : List Char) : List Char :=
  ((host.dropWhile (· == '[')).reverse.dropWhile (· == ']')).reverse

/-- The endpoint that a text is. A missing host is reported before a wrong port. -/
def parse (text : String) : Except EndpointError Endpoint :=
  match splitLastColon (dropScheme text.toList) with
  | none => .error (.missingPort text)
  | some (host, port) =>
    if (dropBrackets host).isEmpty then .error (.missingHost text)
    else
      match Text.readNat 65535 port with
      | .error _ => .error (.invalidPort text)
      | .ok n => .ok ⟨String.ofList (dropBrackets host), UInt16.ofNat n⟩

end Endpoint

end CavityConsole

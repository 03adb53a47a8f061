import CavityConsole.Time.Duration
import CavityConsole.Transport.Endpoint
import CavityConsole.Transport.Host

/-!
# Reaching a server

A host that is an address needs no name service. Connecting to an address may fail at once, because
there is no way to it or nobody listens there, or because no time was given for it. A `Network` says
which of these happens.
-/

namespace CavityConsole

/-- Why a host has no address. -/
inductive ResolveError where
  /-- A host cannot hold a null character. -/
  | nullCharacter
  /-- A host that can be no name has no address. -/
  | unknownName
  /-- No name service can be asked. -/
  | noNameService
deriving DecidableEq, Repr

/-- The wording of an error. -/
def ResolveError.message : ResolveError → String
  | .nullCharacter => "file name contained an unexpected NUL byte"
  | .unknownName => "failed to lookup address information: Name or service not known"
  | .noNameService =>
    "failed to lookup address information: Temporary failure in name resolution"

/-- The address of an endpoint for whose host nobody has to be asked. -/
def Endpoint.resolve (endpoint : Endpoint) : Except ResolveError Address :=
  match Host.address? endpoint.host with
  | some address => .ok address
  | none =>
    if endpoint.host.toList.contains '\x00' then .error .nullCharacter
    else if Host.isName endpoint.host then .error .noNameService
    else .error .unknownName

/-- What a machine can reach. -/
inductive Network where
  /-- Nothing: not even the machine itself has an address. -/
  | isolated
  /-- The machine itself and others, but nobody listens. -/
  | silent
deriving DecidableEq, Repr

/-- Why a connection attempt fails at once. -/
inductive SocketError where
  /-- There is no way to the address. -/
  | unreachable
  /-- The machine has no address of the kind. -/
  | noAddress
  /-- The address holds on one link only, and no link is given. -/
  | noLink
  /-- Nobody listens at the address. -/
  | refused
  /-- No time was given. -/
  | noTime
deriving DecidableEq, Repr

/-- The wording of an error. -/
def SocketError.message : SocketError → String
  | .unreachable => "Network is unreachable (os error 101)"
  | .noAddress => "Cannot assign requested address (os error 99)"
  | .noLink => "Invalid argument (os error 22)"
  | .refused => "Connection refused (os error 111)"
  | .noTime => "cannot set a 0 duration timeout"

/-- Why an isolated machine cannot reach an address. Groups that stand for four bytes, and those of
many receivers, fail like four bytes. -/
def Address.isolationError : Address → SocketError
  | .v4 _ => .unreachable
  | .v6 groups link =>
    if groups.take 6 = [0, 0, 0, 0, 0, 0xffff] ∨ groups.headD 0 / 256 = 0xff then .unreachable
    else if Host.holdsOnLink groups ∧ link = 0 then .noLink
    else .noAddress

/-- How an attempt to connect fails where no server can be reached. A network without a way to the
address says so before the time given is looked at. -/
def Network.attempt (network : Network) (address : Address) (timeout : Duration) : SocketError :=
  match network with
  | .isolated => address.isolationError
  | .silent => if timeout.nanoseconds = 0 then .noTime else .refused

/-- Whether a machine can listen at an address of its own. -/
def Network.canListen : Network → Bool
  | .isolated => false
  | .silent => true

/-- Why a server could not be connected to. -/
inductive ConnectError where
  /-- The host has no address. -/
  | resolve (endpoint : Endpoint) (error : ResolveError)
  /-- The address could not be connected to. -/
  | connect (endpoint : Endpoint) (reason : String)
  /-- The connection could not be set up. -/
  | configure (endpoint : Endpoint) (reason : String)
deriving DecidableEq

/-- The wording of an error. -/
def ConnectError.message : ConnectError → String
  | .resolve endpoint error =>
    "failed to resolve phaser server " ++ endpoint.text ++ ": " ++ error.message
  | .connect endpoint reason =>
    "failed to connect to phaser server " ++ endpoint.text ++ ": " ++ reason
  | .configure endpoint reason =>
    "failed to configure connection to " ++ endpoint.text ++ ": " ++ reason

/-- Why an endpoint cannot be connected to on a network without servers. -/
def Network.connectError (network : Network) (endpoint : Endpoint) (timeout : Duration) :
    ConnectError :=
  match endpoint.resolve with
  | .error error => .resolve endpoint error
  | .ok address => .connect endpoint (network.attempt address timeout).message

end CavityConsole

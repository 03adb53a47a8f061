import CavityConsole.CommandLine.Run
import Std.Async.DNS
import Std.Async.TCP
import Std.Async.Timer

/-!
# The program

The program reads the environment and a file, connects, sends the lines that a run asks for and
collects what arrives. What is sent, printed and reported is decided by `World.run`: the run is
carried out on the transcript so far, and as long as it sends a command that the transcript has no
reply to, the line goes out and the reply is collected.
-/

namespace CavityConsole.Program

open Std.Async

/-- The name that the program goes by. -/
def name : String := "phaserctl"

/-- The variables of the environment; where they cannot be listed, those that name settings. -/
def environment : IO (List (String × String)) := do
  try
    let bytes ← IO.FS.readBinFile "/proc/self/environ"
    return ((String.fromUTF8? bytes).getD "").splitOn "\x00" |>.filterMap fun entry =>
      match ConfigFlag.splitEquals entry with
      | (key, some value) => some (key, value)
      | (_, none) => none
  catch _ =>
    let names := "PHASER_CONFIG_PATH" :: Setting.all.map fun s => "PHASER_" ++ s.name.toUpper
    names.filterMapM fun key => do return (← IO.getEnv key).map fun value => (key, value)

/-- What a path leads to. -/
def fileState (path : String) : IO FileState := do
  try
    return .text (← IO.FS.readFile path)
  catch error =>
    match error with
    | .noFileOrDirectory .. => return .missing
    | _ => return .unusable

/-- What paths lead to, as far as the settings need it. -/
def files (environment : List (String × String)) (flags : Option Flags) :
    IO (String → FileState) := do
  match (flags.bind Flags.filePath?).or (Variables.filePath? environment) with
  | none => return fun _ => .missing
  | some path =>
    let state ← fileState path
    return fun other => if other = path then state else .missing

/-! ## The connection -/

/-- A connection and the bytes that arrived and are not yet used. -/
structure Wire where
  /-- The connection. -/
  client : TCP.Socket.Client
  /-- The bytes of the longest inbound line. -/
  limit : Nat
  /-- What arrived. -/
  reads : IO.Ref (List Transport.Read)

/-- The network address of an address. -/
def socketAddress (port : UInt16) : Address → Std.Net.SocketAddress
  | .v4 bytes =>
    let b (i : Nat) : UInt8 := UInt8.ofNat (bytes.getD i 0)
    .v4 ⟨.ofParts (b 0) (b 1) (b 2) (b 3), port⟩
  | .v6 groups _ =>
    let g (i : Nat) : UInt16 := UInt16.ofNat (groups.getD i 0)
    .v6 ⟨.ofParts (g 0) (g 1) (g 2) (g 3) (g 4) (g 5) (g 6) (g 7), port⟩

/-- The network address of an endpoint. -/
def resolve (endpoint : Endpoint) : IO (Except ResolveError Std.Net.SocketAddress) := do
  match endpoint.resolve with
  | .ok address => return .ok (socketAddress endpoint.port address)
  | .error .nullCharacter => return .error .nullCharacter
  | .error .unknownName => return .error .unknownName
  | .error .noNameService =>
    try
      match (← (DNS.getAddrInfo endpoint.host "").block).toList with
      | [] => return .error .noNameService
      | .v4 address :: _ => return .ok (.v4 ⟨address, endpoint.port⟩)
      | .v6 address :: _ => return .ok (.v6 ⟨address, endpoint.port⟩)
    catch _ => return .error .noNameService

/-- The failures of the network whose wording is fixed, under their numbers. -/
def networkFailures : List (Nat × String) :=
  [(22, SocketError.noLink.message), (32, "Broken pipe (os error 32)"),
   (99, SocketError.noAddress.message), (101, SocketError.unreachable.message),
   (104, "Connection reset by peer (os error 104)"), (111, SocketError.refused.message)]

/-- The wording of a failure of the network; its number is kept as the negative of the one that is
known. -/
def failureText (code : UInt32) (details : String) : String :=
  (networkFailures.lookup (UInt32.size - code.toNat)).getD details

/-- The wording of a failure. -/
def reason : IO.Error → String
  | .noSuchThing _ code details | .invalidArgument _ code details => failureText code details
  | .unsupportedOperation code details | .resourceVanished code details
  | .otherError code details => failureText code details
  | error => error.toString

/-- Why a connection is not there in time. -/
def lateText (timeout : Duration) : String :=
  if timeout.nanoseconds = 0 then SocketError.noTime.message else "connection timed out"

/-- Connects to a server. -/
def connect (settings : SessionSettings) : IO (Except ConnectError Wire) := do
  match ← resolve settings.endpoint with
  | .error error => return .error (.resolve settings.endpoint error)
  | .ok address =>
    try
      let client ← TCP.Socket.Client.mk
      let expire : Async Unit := do
        sleep (.ofNat (settings.connectTimeout.milliseconds))
        throw (IO.userError (lateText settings.connectTimeout))
      (Async.race (client.connect address) expire).block
      client.noDelay
      return .ok ⟨client, settings.maxFrameLength, ← IO.mkRef []⟩
    catch error => return .error (.connect settings.endpoint (reason error))

/-- Waits for bytes, at most so many milliseconds if there is a limit; nothing when the time is
up. -/
def receive (wire : Wire) (limit : Option Nat) : Async (Option (Option ByteArray)) := do
  let bytes : Selectable (Option (Option ByteArray)) :=
    .case (wire.client.recvSelector 8192) fun data => pure (some data)
  match limit with
  | none => Selectable.one #[bytes]
  | some milliseconds =>
    let expired ← Selector.sleep (.ofNat milliseconds)
    Selectable.one #[bytes, .case expired fun _ => pure none]

/-- The next arrival before a point in time; nothing when it is reached. -/
def nextArrival (wire : Wire) (deadline : Option Nat) : IO (Option Arrival) := do
  repeat
    let reads ← wire.reads.get
    if let some (arrival, rest) := Arrival.next? wire.limit reads then
      wire.reads.set rest
      return some arrival
    let now ← IO.monoMsNow
    if deadline.any (· ≤ now) then return none
    let received ← try (receive wire (deadline.map (· - now))).block
      catch error => do
        wire.reads.modify (· ++ [.failed (reason error)])
        continue
    match received with
    | none => return none
    | some none => return some (.stop .closed)
    | some (some data) => wire.reads.modify (· ++ [.bytes data.toList])
  return none

/-- What arrives up to the end of a wait for a response. -/
def reply (wire : Wire) (timeout : Duration) : IO (List Arrival) := do
  let deadline := (← IO.monoMsNow) + timeout.milliseconds
  let mut arrivals : Array Arrival := #[]
  repeat
    match ← nextArrival wire (some deadline) with
    | none => break
    | some arrival =>
      arrivals := arrivals.push arrival
      if arrival.endsWait then break
  return arrivals.toList

/-- Sends a command and collects the reply to it. -/
def exchange (wire : Wire) (timeout : Duration) (command : Command) :
    IO (Except String (List Arrival)) := do
  try
    (wire.client.send command.sent).block
    return .ok (← reply wire timeout)
  catch error => return .error (reason error)

/-! ## Runs -/

/-- Writes what a run printed and reported. -/
def report (result : RunResult) : IO UInt32 := do
  IO.print result.stdout
  (← IO.getStdout).flush
  IO.eprint result.stderr
  return UInt32.ofNat result.exitCode

/-- Prints notifications as they arrive until reading ends. -/
def watch (session : Session) (wire : Wire) : IO UInt32 := do
  let stdout ← IO.getStdout
  let mut session := session
  repeat
    stdout.putStr (String.join (notificationPieces (session.heard watcher.name)))
    stdout.flush
    if session.exit.isSome then break
    session := { session with connection := { session.connection with events := [], log := [] } }
    if let some arrival ← nextArrival wire none then session := session.arrive [arrival]
  match session.close.outcome with
  | .ok () => return 0
  | .error error =>
    IO.eprintln error.message
    return 1

/-- Carries out a request on a connection: extends the transcript until the run needs no more. -/
def converse (world : World) (arguments : List Argument) (settings : SessionSettings)
    (request : Request) (wire : Wire) : IO UInt32 := do
  let mut replies : Array (Except String (List Arrival)) := #[]
  repeat
    let server := Server.ofTranscript replies.toList
    let result := { world with reach := fun _ => .ok server }.run arguments
    match result.received[replies.size]? with
    | some command => replies := replies.push (← exchange wire settings.responseTimeout command)
    | none =>
      if request != .watch ∨ result.exitCode != 0 then return ← report result
      let (caches, cache) := CavityCaches.fresh {}
      let (session, _) := Session.openWith settings [watcher] caches cache server
      return ← watch session wire
  return 1

/-- Runs the program with its arguments. -/
def start (arguments : List String) : IO UInt32 := do
  let arguments := (name :: arguments).map Argument.ofText
  let parts := SplitArguments.ofArguments arguments
  let environment ← environment
  let flags := (parts.configuration.tail.mapM Argument.text?).bind Flags.read
  let files ← files environment flags
  let world : World :=
    { files, environment, reach := fun _ => .error (.reader "there is no connection") }
  match Request.ofArguments parts.command.tail, world.settings parts.configuration.tail with
  | .ok request, .ok settings =>
    match ← connect settings.session with
    | .error error =>
      report ({ world with reach := fun _ => .error (.connect error) }.run arguments)
    | .ok wire => converse world arguments settings.session request wire
  | _, _ => report (world.run arguments)

end CavityConsole.Program

/-- The program. -/
def main (arguments : List String) : IO UInt32 := CavityConsole.Program.start arguments

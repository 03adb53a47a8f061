import CavityConsole.Console.Operation
import CavityConsole.Session.CavityCache
import CavityConsole.Session.Server
import CavityConsole.Settings.Basic
import CavityConsole.Transport.Network

/-!
# Sessions

A session is an open connection to a server. Opening one connects, starts reading with all listeners
in place, asks for the version and fills the cavity cache; unless all of this succeeds there is no
session. The cache is replaced only by a complete list of cavities, so a refresh that fails leaves
it as it was, and so does a session that cannot be opened before it has such a list.

Reading may end at any time, also while the session is being opened. From then on a command is
interrupted: nobody is left to hear a response.
-/

namespace CavityConsole

/-- What opening a session needs to know. -/
structure SessionSettings where
  /-- Where the server is. -/
  endpoint : Endpoint
  /-- How long a connection is waited for. -/
  connectTimeout : Duration
  /-- How long a response is waited for. -/
  responseTimeout : Duration
  /-- The bytes of the longest inbound line. -/
  maxFrameLength : Nat
deriving DecidableEq, Repr

/-- The part of the settings that opening a session needs. -/
def Settings.session (settings : Settings) : SessionSettings where
  endpoint := settings.endpoint
  connectTimeout := settings.connectTimeout
  responseTimeout := settings.responseTimeout
  maxFrameLength := settings.maxFrameLength.toNat

/-- Why there is no session. -/
inductive SessionError where
  /-- The server could not be connected to. -/
  | connect (error : ConnectError)
  /-- Reading could not be started. -/
  | reader (reason : String)
  /-- The server did not say its version or its cavities. -/
  | handshake (error : CommandError)
deriving DecidableEq

/-- The wording of an error. -/
def SessionError.message : SessionError → String
  | .connect error => error.message
  | .reader reason => "failed to start connection reader: " ++ reason
  | .handshake error => "handshake with phaser server failed: " ++ error.message

/-- An open connection. -/
structure Session where
  /-- The connection. -/
  connection : Connection
  /-- All cavity caches that there are. -/
  caches : CavityCaches
  /-- The cache of this session. -/
  cache : CavityHandle
  /-- How reading ended, if it did. -/
  exit : Option ReaderExit := none
  /-- The commands that the server received. -/
  received : List Command := []
  /-- The version of the server. -/
  version : String := ""

namespace Session

/-- A connection that was just made. -/
def start (settings : SessionSettings) (listeners : List Recorder) (caches : CavityCaches)
    (cache : CavityHandle) : Session where
  connection := .start settings.responseTimeout listeners
  caches
  cache

/-- The cavities of the server, as the cache has them. -/
def cavities (session : Session) : CavityList := session.caches.snapshot session.cache

/-- The notifications that a listener was called with, in order. -/
def heard (session : Session) (listener : String) : List Notification :=
  session.connection.events.filterMap fun
    | .heard name notification => if name = listener then some notification else none
    | _ => none

/-- Something arrives while no command is outstanding. -/
def arrive (session : Session) (arrivals : List Arrival) : Session :=
  match session.exit with
  | some _ => session
  | none =>
    let (actions, exit) := Arrival.actions arrivals
    { session with connection := (session.connection.perform actions).1, exit }

/-- Issues a command; the reply of the server arrives while it is outstanding. -/
def call (session : Session) (server : Server) (command : Command) :
    Session × Except CommandError Document :=
  let commands := session.received ++ [command]
  let (actions, exit, received) :=
    match session.exit, server.refusal commands with
    | some exit, none => ([], some exit, session.received)
    | exit, some reason => ([.fail reason], exit, session.received)
    | none, none =>
      let (actions, exit) := Arrival.actions (server.reply commands)
      (actions, exit, commands)
  let (connection, outcome) := session.connection.call command actions
  ({ session with connection, exit, received },
   outcome.getD (.error (.interrupted command.name)))

/-- Asks for the version. -/
def askVersion (session : Session) (server : Server) : Session × Except CommandError String :=
  let (session, outcome) := session.call server .version
  (session, outcome.bind versionOf)

/-- Asks for the cavities. -/
def askCavities (session : Session) (server : Server) :
    Session × Except CommandError CavityList :=
  let (session, outcome) := session.call server .cavities
  (session, outcome.bind cavitiesOf)

/-- Issues a command that is only acknowledged. -/
def acknowledge (session : Session) (server : Server) (command : Command) :
    Session × Except CommandError Unit :=
  let (session, outcome) := session.call server command
  (session, outcome.map fun _ => ())

/-- Reads the cavities of the server into the cache. -/
def refreshCavities (session : Session) (server : Server) :
    Session × Except CommandError Unit :=
  match session.askCavities server with
  | (session, .error error) => (session, .error error)
  | (session, .ok cavities) =>
    ({ session with caches := session.caches.replace session.cache cavities }, .ok ())

/-- Asks for the version and then for the cavities. -/
def handshake (session : Session) (server : Server) : Session × Except CommandError Unit :=
  match session.askVersion server with
  | (session, .error error) => (session, .error error)
  | (session, .ok version) => { session with version }.refreshCavities server

/-- Opens a session with a server that was connected to. Without an outcome that is fine the session
is over; its caches are what is left of it. -/
def openWith (settings : SessionSettings) (listeners : List Recorder) (caches : CavityCaches)
    (cache : CavityHandle) (server : Server) : Session × Except SessionError Unit :=
  let session := (start settings listeners caches cache).arrive server.greeting
  let (session, outcome) := session.handshake server
  (session, outcome.mapError .handshake)

/-- Shuts the connection down and waits for the end of reading. -/
def close (session : Session) : ReaderExit := session.exit.getD .closed

/-- Waits for the end of reading while more arrives. -/
def wait (session : Session) (later : List Arrival) : Session × ReaderExit :=
  let session := session.arrive later
  (session, session.exit.getD .closed)

end Session

/-- Why a session cannot be opened on a network without servers. -/
def Network.sessionError (network : Network) (settings : SessionSettings) : SessionError :=
  .connect (network.connectError settings.endpoint settings.connectTimeout)

end CavityConsole

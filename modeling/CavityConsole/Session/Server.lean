import CavityConsole.Session.Connection

/-!
# The other end of a connection

What a server sends is told apart by what the reader makes of it: lines, and the end of reading. A
server says what it sends on being connected to and on each command, given all the commands that it
received so far; it may also be gone for a command, whose line then cannot be written.

A line that is no document ends the reading, and with it the connection lets go of the slot; nothing
that was sent behind it is heard.
-/

namespace CavityConsole

/-- Something that arrives at a connection. -/
inductive Arrival where
  /-- A line. -/
  | line (text : String)
  /-- The end of reading. -/
  | stop (exit : ReaderExit)

/-- The first arrival that bytes on the wire bring, and the reads that are left behind it; nothing
while a line is still incomplete. -/
def Arrival.next? (limit : Nat) (reads : List Transport.Read) :
    Option (Arrival × List Transport.Read) :=
  match _taken : Transport.readFrame limit [] reads with
  | .ended => none
  | .tooLong => some (.stop (.failed (.lineTooLong limit)), [])
  | .failed reason => some (.stop (.failed (.io reason)), [])
  | .line frame rest =>
    match Transport.text? (Transport.stripReturn frame) with
    | none => some (.stop (.failed .invalidUtf8), [])
    | some text =>
      if Transport.isBlankLine text then Arrival.next? limit rest else some (.line text, rest)
termination_by Transport.bytesLeft reads
decreasing_by exact Transport.bytesLeft_lt_of_line ‹_›

/-- Whether an arrival ends the wait for a response: a response does, and so does the end of
reading. -/
def Arrival.endsWait : Arrival → Bool
  | .stop _ => true
  | .line text =>
    match Document.ofLine text with
    | .error _ => true
    | .ok document => Members.contains document "response"

/-- What happens at the connection up to the end of reading, and that end, if it is among the
arrivals. -/
def Arrival.actions : List Arrival → List Connection.Action × Option ReaderExit
  | [] => ([], none)
  | .stop exit :: _ => ([.letGo], some exit)
  | .line text :: rest =>
    match Document.ofLine text with
    | .error error => ([.letGo], some (.failed (.undecodable error)))
    | .ok _ => (Arrival.actions rest).map (.line text :: ·) id

/-- A server, as a client sees it. -/
structure Server where
  /-- What it sends on being connected to. -/
  greeting : List Arrival := []
  /-- Why the line of the last of these commands cannot be written, if it cannot. -/
  refusal : List Command → Option String := fun _ => none
  /-- What it sends on the last of the commands that it received. -/
  reply : List Command → List Arrival

/-- The server that answered an earlier connection command by command: each time either with what
arrived or with the reason why the line could not be written. -/
def Server.ofTranscript (replies : List (Except String (List Arrival))) : Server where
  refusal commands :=
    match replies[commands.length - 1]? with
    | some (.error reason) => some reason
    | _ => none
  reply commands :=
    match replies[commands.length - 1]? with
    | some (.ok arrivals) => arrivals
    | _ => []

end CavityConsole

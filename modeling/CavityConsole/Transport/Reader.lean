import CavityConsole.Dispatch.Dispatcher
import CavityConsole.Text.Blank

/-!
# Reading lines from a connection

Bytes arrive in pieces cut anywhere. `readFrame` collects them up to the next newline; what has been
collected may never be longer than the limit, a carriage return at its end included, and this is
checked after every piece, so that a line without an end is refused early. `readLines` takes frame
after frame: a carriage return at the end is dropped, blank lines are skipped, and every other line
is handed on. An unfinished line at the end of the stream is left aside.
-/

namespace CavityConsole.Transport

/-- What one read of the connection gives. -/
inductive Read where
  /-- Some bytes. -/
  | bytes (data : List UInt8)
  /-- The read was interrupted and is tried again. -/
  | interrupted
  /-- The read failed. -/
  | failed (reason : String)

/-- The byte that ends a line. -/
def newline : UInt8 := 10

/-- The byte that may stand before a newline. -/
def carriageReturn : UInt8 := 13

/-- What collecting a frame ends with. -/
inductive FrameResult where
  /-- A whole line without its newline, and the reads that are left. -/
  | line (frame : List UInt8) (rest : List Read)
  /-- The stream ended; an unfinished line is left aside. -/
  | ended
  /-- What was collected exceeds the limit. -/
  | tooLong
  /-- A read failed. -/
  | failed (reason : String)

/-- Collects bytes behind those of an unfinished frame, up to the next newline. -/
def readFrame (limit : Nat) : (frame : List UInt8) → List Read → FrameResult
  | _, [] => .ended
  | frame, .interrupted :: rest => readFrame limit frame rest
  | _, .failed reason :: _ => .failed reason
  | frame, .bytes data :: rest =>
    let frame := frame ++ data.takeWhile (· != newline)
    if limit < frame.length then .tooLong
    else
      match data.dropWhile (· != newline) with
      | [] => readFrame limit frame rest
      | _ :: after => .line frame (.bytes after :: rest)

/-- How many bytes are still to come. -/
def bytesLeft : List Read → Nat
  | [] => 0
  | .bytes data :: rest => data.length + bytesLeft rest
  | _ :: rest => bytesLeft rest

/-- A frame uses up its bytes and its newline. -/
theorem bytesLeft_lt_of_line {limit : Nat} :
    ∀ {reads : List Read} {start frame : List UInt8} {rest : List Read},
      readFrame limit start reads = .line frame rest → bytesLeft rest < bytesLeft reads
  | [], _, _, _, h => by simp [readFrame] at h
  | .interrupted :: reads, start, frame, rest, h => by
    rw [readFrame] at h
    simpa [bytesLeft] using bytesLeft_lt_of_line h
  | .failed _ :: _, _, _, _, h => by simp [readFrame] at h
  | .bytes data :: reads, start, frame, rest, h => by
    rw [readFrame] at h
    split at h
    · cases h
    · split at h
      · have := bytesLeft_lt_of_line h
        simp only [bytesLeft]
        omega
      · next after hdrop =>
        cases h
        have hlen := (List.dropWhile_suffix (l := data) (· != newline)).length_le
        rw [hdrop] at hlen
        simp only [bytesLeft, List.length_cons] at *
        omega

/-- What a line is without the carriage return at its end. -/
def stripReturn (frame : List UInt8) : List UInt8 :=
  if frame.getLast? = some carriageReturn then frame.dropLast else frame

/-- The text of UTF-8 bytes. -/
def text? (bytes : List UInt8) : Option String := String.fromUTF8? ⟨bytes.toArray⟩

/-- Whether a line holds nothing but white space. -/
def isBlankLine (line : String) : Bool := line.toList.all Text.isBlank

/-- Reads lines and hands them on until the stream ends or a line cannot be taken. `handle` is what
handing a line on does to the state around it. -/
def readLines {σ : Type} (limit : Nat) (handle : σ → String → σ × LineOutcome) (state : σ)
    (reads : List Read) : σ × ReaderExit :=
  match _taken : readFrame limit [] reads with
  | .ended => (state, .closed)
  | .tooLong => (state, .failed (.lineTooLong limit))
  | .failed reason => (state, .failed (.io reason))
  | .line frame rest =>
    match text? (stripReturn frame) with
    | none => (state, .failed .invalidUtf8)
    | some line =>
      if isBlankLine line then readLines limit handle state rest
      else
        match handle state line with
        | (state, .dispatched) => readLines limit handle state rest
        | (state, .refused error) => (state, .failed (.undecodable error))
        | (state, .brokeDown) => (state, .brokenDown)
termination_by bytesLeft reads
decreasing_by all_goals exact bytesLeft_lt_of_line ‹_›

/-- What the end of reading logs: the error, if there is one. -/
def exitEntries : ReaderExit → List LogEntry
  | .failed error => [.closing error]
  | _ => []

end CavityConsole.Transport

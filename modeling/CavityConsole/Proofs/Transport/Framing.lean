import CavityConsole.Dispatch.Dispatcher
import CavityConsole.Transport.Reader
import Mathlib.Data.List.TakeWhile

/-!
# Lines do not depend on how the bytes are cut

`readLines` sees bytes in pieces and checks the limit after each piece. The reference here sees the
whole stream at once: `wholeLines` cuts it at every newline, `Line.ofBytes` says what one line is
taken for, and `readWhole` takes line after line.

**The law** (`readLines_eq_readWhole`): for every way in which the bytes arrive, reading does to the
state around it what the reference does, and ends as the reference ends.

The induction for one line is on the reads, with the unfinished line as the accumulator:
`collected_readFrame` says what collecting a frame comes to in terms of the bytes up to the next
newline, wherever the pieces end.

**What it does not establish.** A read that fails ends the reading where it stands; the law is about
streams that end by themselves.
-/

namespace CavityConsole.Transport

/-! ## The whole stream -/

/-- The bytes that reads bring, in order. -/
def content : List Read → List UInt8
  | [] => []
  | .bytes data :: rest => data ++ content rest
  | .interrupted :: rest => content rest
  | .failed _ :: rest => content rest

/-- No read fails. -/
def Undisturbed (reads : List Read) : Prop := ∀ reason, .failed reason ∉ reads

/-- The lines of a stream that end in a newline, without it. -/
def wholeLines (bytes : List UInt8) : List (List UInt8) := (bytes.splitOn newline).dropLast

/-- What stands behind the last newline of a stream. -/
def unfinished (bytes : List UInt8) : List UInt8 := (bytes.splitOn newline).getLastD []

/-- What a line is taken for. -/
inductive Line where
  /-- Nothing: it is blank. -/
  | blank
  /-- A text to hand on. -/
  | text (line : String)
  /-- The end of the connection. -/
  | fault (error : TransportError)

/-- What the bytes of a line are taken for, a carriage return at their end included. -/
def Line.ofBytes (limit : Nat) (bytes : List UInt8) : Line :=
  if limit < bytes.length then .fault (.lineTooLong limit)
  else
    match text? (stripReturn bytes) with
    | none => .fault .invalidUtf8
    | some line => if isBlankLine line then .blank else .text line

section

variable {limit : Nat} {bytes : List UInt8} (hfits : bytes.length ≤ limit)
include hfits

/-- Within the limit, bytes that are no text end the connection. -/
theorem Line.ofBytes_invalid (htext : text? (stripReturn bytes) = none) :
    Line.ofBytes limit bytes = .fault .invalidUtf8 := by
  rw [ofBytes, if_neg (Nat.not_lt.mpr hfits), htext]

/-- Within the limit, a blank text is nothing. -/
theorem Line.ofBytes_blank {line : String} (htext : text? (stripReturn bytes) = some line)
    (hblank : isBlankLine line = true) : Line.ofBytes limit bytes = .blank := by
  simp only [ofBytes, if_neg (Nat.not_lt.mpr hfits), htext, if_pos hblank]

/-- Within the limit, any other text is handed on. -/
theorem Line.ofBytes_text {line : String} (htext : text? (stripReturn bytes) = some line)
    (hblank : ¬ isBlankLine line = true) : Line.ofBytes limit bytes = .text line := by
  simp only [ofBytes, if_neg (Nat.not_lt.mpr hfits), htext, if_neg hblank]

end

/-- How reading ends when no line ended it before. -/
def endOfStream (limit : Nat) (rest : List UInt8) : ReaderExit :=
  if limit < rest.length then .failed (.lineTooLong limit) else .closed

/-- Takes line after line of a whole stream. `handle` is what handing a line on does. -/
def readWhole {σ : Type} (limit : Nat) (handle : σ → String → σ × LineOutcome) (rest : List UInt8) :
    σ → List (List UInt8) → σ × ReaderExit
  | state, [] => (state, endOfStream limit rest)
  | state, bytes :: lines =>
    match Line.ofBytes limit bytes with
    | .fault error => (state, .failed error)
    | .blank => readWhole limit handle rest state lines
    | .text line =>
      match handle state line with
      | (state, .dispatched) => readWhole limit handle rest state lines
      | (state, .refused error) => (state, .failed (.undecodable error))
      | (state, .brokeDown) => (state, .brokenDown)

/-! ### Cutting at newlines -/

/-- A stream without a newline is one unfinished line. -/
theorem splitOn_of_no_newline {bytes : List UInt8} (h : bytes.dropWhile (· != newline) = []) :
    bytes.splitOn newline = [bytes] := by
  rw [List.splitOn_eq_splitOnP]
  refine List.splitOnP_eq_singleton fun byte hbyte => ?_
  simpa using List.dropWhile_eq_nil_iff.mp h byte hbyte

/-- A stream with a newline is its first line and the stream behind it. -/
theorem splitOn_of_newline {bytes after : List UInt8} {byte : UInt8}
    (h : bytes.dropWhile (· != newline) = byte :: after) :
    bytes.splitOn newline = bytes.takeWhile (· != newline) :: after.splitOn newline := by
  have hbyte : byte = newline := by
    have := List.head?_dropWhile_not (· != newline) bytes
    rw [h] at this
    simpa using this
  have hline : ∀ b ∈ bytes.takeWhile (· != newline), (b == newline) = false := fun b hb => by
    simpa using List.mem_takeWhile_imp hb
  calc bytes.splitOn newline
      = (bytes.takeWhile (· != newline) ++ byte :: after).splitOn newline := by
        rw [← h, List.takeWhile_append_dropWhile]
    _ = bytes.takeWhile (· != newline) :: after.splitOn newline := by
        rw [List.splitOn_eq_splitOnP, List.splitOn_eq_splitOnP, hbyte]
        exact List.splitOnP_append_cons_of_forall_mem hline newline (by simp) after

theorem wholeLines_of_no_newline {bytes : List UInt8}
    (h : bytes.dropWhile (· != newline) = []) :
    wholeLines bytes = [] ∧ unfinished bytes = bytes := by
  rw [wholeLines, unfinished, splitOn_of_no_newline h]
  exact ⟨rfl, rfl⟩

theorem wholeLines_of_newline {bytes after : List UInt8} {byte : UInt8}
    (h : bytes.dropWhile (· != newline) = byte :: after) :
    wholeLines bytes = bytes.takeWhile (· != newline) :: wholeLines after ∧
      unfinished bytes = unfinished after := by
  have hne := List.splitOn_ne_nil newline after
  rw [wholeLines, unfinished, splitOn_of_newline h]
  refine ⟨List.dropLast_cons_of_ne_nil hne, ?_⟩
  rw [unfinished, List.getLastD_eq_getLast?, List.getLastD_eq_getLast?,
    List.getLast?_cons_of_ne_nil hne]

/-! ## One frame -/

/-- What collecting a frame comes to: `line` is the whole line, `after` the stream from its newline
on. -/
def Collected (limit : Nat) (line after : List UInt8) : FrameResult → Prop
  | .tooLong => limit < line.length
  | .ended => line.length ≤ limit ∧ after = []
  | .line frame rest =>
    line.length ≤ limit ∧ frame = line ∧ Undisturbed rest ∧ ∃ byte, after = byte :: content rest
  | .failed _ => False

theorem Undisturbed.tail {read : Read} {reads : List Read} (h : Undisturbed (read :: reads)) :
    Undisturbed reads := fun reason hmem => h reason (List.mem_cons_of_mem _ hmem)

/-- A piece without a newline belongs to the line as a whole. -/
theorem takeWhile_eq_self {data : List UInt8} (h : data.dropWhile (· != newline) = []) :
    data.takeWhile (· != newline) = data := by
  have := List.takeWhile_append_dropWhile (p := (· != newline)) (l := data)
  rwa [h, List.append_nil] at this

/-- A line goes on behind a piece without a newline. -/
theorem cut_behind {data : List UInt8} (h : data.dropWhile (· != newline) = [])
    (rest : List UInt8) :
    (data ++ rest).takeWhile (· != newline) = data ++ rest.takeWhile (· != newline) ∧
      (data ++ rest).dropWhile (· != newline) = rest.dropWhile (· != newline) := by
  have hall : ∀ byte ∈ data, (byte != newline) = true := List.dropWhile_eq_nil_iff.mp h
  exact ⟨List.takeWhile_append_of_pos hall, List.dropWhile_append_of_pos hall⟩

/-- A line ends in the first piece with a newline. -/
theorem cut_within {data after : List UInt8} {byte : UInt8}
    (h : data.dropWhile (· != newline) = byte :: after) (rest : List UInt8) :
    (data ++ rest).takeWhile (· != newline) = data.takeWhile (· != newline) ∧
      (data ++ rest).dropWhile (· != newline) = byte :: (after ++ rest) := by
  constructor
  · rw [List.takeWhile_append, if_neg]
    intro hlen
    have hdata := congrArg List.length
      (List.takeWhile_append_dropWhile (p := (· != newline)) (l := data))
    rw [List.length_append, h, List.length_cons] at hdata
    omega
  · rw [List.dropWhile_append, h]
    rfl

/-- **Collecting a frame gives the line of the whole stream**, wherever the pieces end. The
unfinished line `frame` stays within the limit from piece to piece. -/
theorem collected_readFrame (limit : Nat) :
    ∀ (reads : List Read) (frame : List UInt8), Undisturbed reads → frame.length ≤ limit →
      Collected limit (frame ++ (content reads).takeWhile (· != newline))
        ((content reads).dropWhile (· != newline)) (readFrame limit frame reads) := by
  intro reads
  induction reads with
  | nil =>
    intro frame _ hframe
    exact ⟨by simpa [content] using hframe, rfl⟩
  | cons read reads ih =>
    intro frame calm hframe
    cases read with
    | failed reason => exact absurd List.mem_cons_self (calm reason)
    | interrupted =>
      rw [readFrame]
      exact ih frame calm.tail hframe
    | bytes data =>
      rw [readFrame, content]
      cases hdrop : data.dropWhile (· != newline) with
      | nil =>
        obtain ⟨htake, hafter⟩ := cut_behind hdrop (content reads)
        rw [takeWhile_eq_self hdrop, htake, hafter, ← List.append_assoc]
        dsimp only
        split
        next hlong =>
          show limit < _
          rw [List.length_append]
          omega
        next hfits => exact ih (frame ++ data) calm.tail (Nat.le_of_not_lt hfits)
      | cons byte after =>
        obtain ⟨htake, hafter⟩ := cut_within hdrop (content reads)
        rw [htake, hafter]
        dsimp only
        split
        next hlong => exact hlong
        next hfits =>
          refine ⟨Nat.le_of_not_lt hfits, rfl, ?_, byte, rfl⟩
          intro reason hmem
          rcases List.mem_cons.mp hmem with heq | hmem
          · cases heq
          · exact calm.tail reason hmem

/-! ## All frames -/

variable {σ : Type}

/-- Collecting from the start of a line, without an unfinished line before it. -/
theorem collected_fresh (limit : Nat) {reads : List Read} (calm : Undisturbed reads) :
    Collected limit ((content reads).takeWhile (· != newline))
      ((content reads).dropWhile (· != newline)) (readFrame limit [] reads) :=
  collected_readFrame limit reads [] calm (Nat.zero_le limit)

/-- A collected frame is the first line of the stream, within the limit. -/
theorem stream_of_line {limit : Nat} {reads rest : List Read} {frame : List UInt8}
    (calm : Undisturbed reads) (h : readFrame limit [] reads = .line frame rest) :
    wholeLines (content reads) = frame :: wholeLines (content rest) ∧
      unfinished (content reads) = unfinished (content rest) ∧
      frame.length ≤ limit ∧ Undisturbed rest := by
  have hframe := collected_fresh limit calm
  rw [h] at hframe
  obtain ⟨hfits, rfl, hrest, byte, hafter⟩ := hframe
  obtain ⟨hlines, hunfinished⟩ := wholeLines_of_newline hafter
  exact ⟨hlines, hunfinished, hfits, hrest⟩

/-- A stream that ends while a frame is collected holds one unfinished line, within the limit. -/
theorem stream_of_ended {limit : Nat} {reads : List Read} (calm : Undisturbed reads)
    (h : readFrame limit [] reads = .ended) :
    wholeLines (content reads) = [] ∧ (unfinished (content reads)).length ≤ limit := by
  have hframe := collected_fresh limit calm
  rw [h] at hframe
  obtain ⟨hfits, hafter⟩ := hframe
  obtain ⟨hlines, hunfinished⟩ := wholeLines_of_no_newline hafter
  rw [takeWhile_eq_self hafter] at hfits
  exact ⟨hlines, hunfinished.symm ▸ hfits⟩

/-- A frame that is refused is the first line of the stream or, without a newline, all of it. -/
theorem readWhole_of_tooLong {limit : Nat} {reads : List Read}
    {handle : σ → String → σ × LineOutcome} {state : σ} (calm : Undisturbed reads)
    (h : readFrame limit [] reads = .tooLong) :
    readWhole limit handle (unfinished (content reads)) state (wholeLines (content reads)) =
      (state, .failed (.lineTooLong limit)) := by
  have hlong := collected_fresh limit calm
  rw [h] at hlong
  change limit < _ at hlong
  cases hafter : (content reads).dropWhile (· != newline) with
  | nil =>
    obtain ⟨hlines, hunfinished⟩ := wholeLines_of_no_newline hafter
    rw [takeWhile_eq_self hafter] at hlong
    rw [hlines, hunfinished, readWhole, endOfStream, if_pos hlong]
  | cons byte after =>
    obtain ⟨hlines, -⟩ := wholeLines_of_newline hafter
    rw [hlines, readWhole, Line.ofBytes, if_pos hlong]

/-- **Reading takes the lines of the whole stream**, one after the other. The induction is on the
frames; each is the first line of what is left of the stream. -/
theorem readLines_eq_readWhole (limit : Nat) (handle : σ → String → σ × LineOutcome) (state : σ)
    (reads : List Read) (calm : Undisturbed reads) :
    readLines limit handle state reads =
      readWhole limit handle (unfinished (content reads)) state (wholeLines (content reads)) := by
  fun_induction readLines limit handle state reads with
  | case1 state reads hframe =>
    obtain ⟨hlines, hfits⟩ := stream_of_ended calm hframe
    rw [hlines, readWhole, endOfStream, if_neg (Nat.not_lt.mpr hfits)]
  | case2 state reads hframe => exact (readWhole_of_tooLong calm hframe).symm
  | case3 state reads reason hframe =>
    have hfailed := collected_fresh limit calm
    rw [hframe] at hfailed
    exact hfailed.elim
  | case4 state reads frame rest hframe htext =>
    obtain ⟨hlines, -, hfits, -⟩ := stream_of_line calm hframe
    rw [hlines, readWhole, Line.ofBytes_invalid hfits htext]
  | case5 state reads frame rest hframe line htext hblank ih =>
    obtain ⟨hlines, hunfinished, hfits, hrest⟩ := stream_of_line calm hframe
    rw [ih hrest, hlines, hunfinished, readWhole, Line.ofBytes_blank hfits htext hblank]
  | case6 state reads frame rest hframe line htext hblank after hhandle ih =>
    obtain ⟨hlines, hunfinished, hfits, hrest⟩ := stream_of_line calm hframe
    rw [ih hrest, hlines, hunfinished]
    simp only [readWhole, Line.ofBytes_text hfits htext hblank, hhandle]
  | case7 state reads frame rest hframe line htext hblank after error hhandle =>
    obtain ⟨hlines, -, hfits, -⟩ := stream_of_line calm hframe
    simp only [hlines, readWhole, Line.ofBytes_text hfits htext hblank, hhandle]
  | case8 state reads frame rest hframe line htext hblank after hhandle =>
    obtain ⟨hlines, -, hfits, -⟩ := stream_of_line calm hframe
    simp only [hlines, readWhole, Line.ofBytes_text hfits htext hblank, hhandle]

end CavityConsole.Transport

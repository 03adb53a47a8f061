import CavityConsole.Proofs.Transport.Framing
import Mathlib.Data.List.Induction

/-!
# What the reader keeps of an unfinished line

Collecting a frame is a loop: each turn takes the bytes of one read up to the next newline and adds
them to a buffer, and refuses the line as soon as the buffer exceeds the limit. `turn` is one turn
together with the bytes that it takes, and `readFrame` is the loop over it (`readFrame_eq_turn`).
`Reached` are the starts of turns, from the first one on and through the calls for one frame after
the other, which share the buffer.

**The law** (`buffer_bounded`): at the start of every turn the buffer holds the bytes taken since
the last newline and nothing else, and it is within the limit. A turn adds the bytes of one read at
most, and all that it takes is in the buffer or is the newline. So a line without an end is refused
when the first read takes it beyond the limit, whatever would still follow.

The invariant is `Buffered`; a turn keeps it (`Buffered.turn`), and hence every run of turns.

**What it does not establish.** How many bytes one read brings is up to the connection; the bound on
the buffer is relative to it.
-/

namespace CavityConsole.Transport

/-! ## One turn -/

/-- How the loop goes on behind a turn. -/
inductive Onward where
  /-- With another turn on the reads that are left. -/
  | again (rest : List Read)
  /-- Not at all: the frame is settled. -/
  | done (result : FrameResult)

/-- A turn of the loop. -/
structure Turn where
  /-- The bytes that it takes from the connection. -/
  taken : List UInt8
  /-- What the buffer holds then. -/
  buffer : List UInt8
  /-- How the loop goes on. -/
  onward : Onward

/-- The turn on a buffer. The bytes are taken before the limit is looked at. -/
def turn (limit : Nat) (frame : List UInt8) : List Read → Turn
  | [] => ⟨[], frame, .done .ended⟩
  | .interrupted :: rest => ⟨[], frame, .again rest⟩
  | .failed reason :: _ => ⟨[], frame, .done (.failed reason)⟩
  | .bytes data :: rest =>
    let piece := data.takeWhile (· != newline)
    let buffer := frame ++ piece
    match data.dropWhile (· != newline) with
    | [] => ⟨piece, buffer, if limit < buffer.length then .done .tooLong else .again rest⟩
    | byte :: after =>
      ⟨piece ++ [byte], buffer,
        .done (if limit < buffer.length then .tooLong else .line buffer (.bytes after :: rest))⟩

/-- **Collecting a frame is the loop over turns.** -/
theorem readFrame_eq_turn (limit : Nat) (frame : List UInt8) (reads : List Read) :
    readFrame limit frame reads =
      match (turn limit frame reads).onward with
      | .again rest => readFrame limit (turn limit frame reads).buffer rest
      | .done result => result := by
  cases reads with
  | nil => rfl
  | cons read rest =>
    cases read with
    | interrupted => rfl
    | failed reason => rfl
    | bytes data =>
      rw [readFrame, turn]
      cases hdrop : data.dropWhile (· != newline) with
      | nil =>
        dsimp only
        split
        next => rfl
        next => rfl
      | cons byte after => rfl

/-- What a turn on a buffer is for each read. -/
inductive Turn.Of (limit : Nat) (frame : List UInt8) : List Read → Turn → Prop where
  | ended : Of limit frame [] ⟨[], frame, .done .ended⟩
  | interrupted {rest : List Read} :
    Of limit frame (.interrupted :: rest) ⟨[], frame, .again rest⟩
  | failed {reason : String} {rest : List Read} :
    Of limit frame (.failed reason :: rest) ⟨[], frame, .done (.failed reason)⟩
  | part {piece : List UInt8} {rest : List Read} (noNewline : newline ∉ piece)
    (fits : (frame ++ piece).length ≤ limit) :
    Of limit frame (.bytes piece :: rest) ⟨piece, frame ++ piece, .again rest⟩
  | line {piece after : List UInt8} {rest : List Read} (noNewline : newline ∉ piece)
    (fits : (frame ++ piece).length ≤ limit) :
    Of limit frame (.bytes (piece ++ newline :: after) :: rest)
      ⟨piece ++ [newline], frame ++ piece, .done (.line (frame ++ piece) (.bytes after :: rest))⟩
  | longPart {piece : List UInt8} {rest : List Read} (noNewline : newline ∉ piece)
    (long : limit < (frame ++ piece).length) :
    Of limit frame (.bytes piece :: rest) ⟨piece, frame ++ piece, .done .tooLong⟩
  | longLine {piece after : List UInt8} {rest : List Read} (noNewline : newline ∉ piece)
    (long : limit < (frame ++ piece).length) :
    Of limit frame (.bytes (piece ++ newline :: after) :: rest)
      ⟨piece ++ [newline], frame ++ piece, .done .tooLong⟩

theorem newline_notMem_takeWhile (data : List UInt8) :
    newline ∉ data.takeWhile (· != newline) := fun h => by
  simpa using List.mem_takeWhile_imp h

/-- Where a read has a newline, the newline divides it. -/
theorem eq_append_newline {data after : List UInt8} {byte : UInt8}
    (h : data.dropWhile (· != newline) = byte :: after) :
    byte = newline ∧ data = data.takeWhile (· != newline) ++ newline :: after := by
  have hbyte := List.head?_dropWhile_not (· != newline) data
  rw [h] at hbyte
  have hbyte : byte = newline := by simpa using hbyte
  have hdata := List.takeWhile_append_dropWhile (p := (· != newline)) (l := data)
  rw [h, hbyte] at hdata
  exact ⟨hbyte, hdata.symm⟩

/-- **A turn is one of these.** -/
theorem turn_of (limit : Nat) (frame : List UInt8) (reads : List Read) :
    Turn.Of limit frame reads (turn limit frame reads) := by
  cases reads with
  | nil => exact .ended
  | cons read rest =>
    cases read with
    | interrupted => exact .interrupted
    | failed reason => exact .failed
    | bytes data =>
      have hpiece := newline_notMem_takeWhile data
      rw [turn]
      cases hdrop : data.dropWhile (· != newline) with
      | nil =>
        rw [takeWhile_eq_self hdrop] at hpiece ⊢
        dsimp only
        split
        next hlong => exact .longPart hpiece hlong
        next hfits => exact .part hpiece (Nat.le_of_not_lt hfits)
      | cons byte after =>
        obtain ⟨rfl, hdata⟩ := eq_append_newline hdrop
        generalize data.takeWhile (· != newline) = piece at hpiece hdata
        subst hdata
        dsimp only
        split
        next hlong => exact .longLine hpiece hlong
        next hfits => exact .line hpiece (Nat.le_of_not_lt hfits)

/-- The bytes of the next read. -/
def nextSize : List Read → Nat
  | .bytes data :: _ => data.length
  | _ => 0

/-- What a turn takes is added to the buffer or is the newline behind that, and it is what comes
first. -/
structure Turn.Keeps (frame : List UInt8) (reads : List Read) (turn : Turn) (piece : List UInt8) :
    Prop where
  noNewline : newline ∉ piece
  buffer : turn.buffer = frame ++ piece
  taken : turn.taken = piece ∨ turn.taken = piece ++ [newline]
  first : turn.taken <+: content reads
  size : turn.taken.length ≤ nextSize reads

theorem Turn.Keeps.piece_le {frame piece : List UInt8} {reads : List Read} {turn : Turn}
    (h : turn.Keeps frame reads piece) : piece.length ≤ turn.taken.length := by
  rcases h.taken with htaken | htaken
  · rw [htaken]
  · rw [htaken, List.length_append]
    exact Nat.le_add_right _ _

variable {limit : Nat} {frame : List UInt8} {reads : List Read}

/-- **No byte is taken without being kept.** -/
theorem exists_keeps (limit : Nat) (frame : List UInt8) (reads : List Read) :
    ∃ piece, (turn limit frame reads).Keeps frame reads piece := by
  have hturn := turn_of limit frame reads
  generalize turn limit frame reads = t at hturn
  cases hturn with
  | ended | interrupted | failed =>
    exact ⟨[], List.not_mem_nil, (List.append_nil _).symm, .inl rfl, List.nil_prefix,
      Nat.zero_le _⟩
  | @part piece _ hpiece | @longPart piece _ hpiece =>
    exact ⟨piece, hpiece, rfl, .inl rfl, List.prefix_append _ _, Nat.le_refl _⟩
  | @line piece after rest hpiece | @longLine piece after rest hpiece =>
    refine ⟨piece, hpiece, rfl, .inr rfl, ⟨after ++ content rest, ?_⟩, ?_⟩
    · rw [content, List.append_assoc, List.append_assoc]
      rfl
    · simp [nextSize]

/-! ## Turn after turn -/

/-- Where a turn starts. -/
structure TurnStart where
  /-- The bytes that were taken from the connection so far. -/
  taken : List UInt8
  /-- What the buffer holds. -/
  frame : List UInt8
  /-- The reads that are left. -/
  reads : List Read

/-- The turn from a start. -/
def TurnStart.turn (limit : Nat) (start : TurnStart) : Turn :=
  Transport.turn limit start.frame start.reads

/-- The starts of turns while frame after frame is collected from a connection. -/
inductive Reached (limit : Nat) (reads : List Read) : TurnStart → Prop where
  /-- Nothing was taken. -/
  | first : Reached limit reads ⟨[], [], reads⟩
  /-- The loop goes on. -/
  | again {start : TurnStart} {rest : List Read} (before : Reached limit reads start)
    (onward : (start.turn limit).onward = .again rest) :
    Reached limit reads
      ⟨start.taken ++ (start.turn limit).taken, (start.turn limit).buffer, rest⟩
  /-- A whole line was collected, and the next call clears the buffer. -/
  | next {start : TurnStart} {line : List UInt8} {rest : List Read}
    (before : Reached limit reads start)
    (onward : (start.turn limit).onward = .done (.line line rest)) :
    Reached limit reads ⟨start.taken ++ (start.turn limit).taken, [], rest⟩

/-- What holds where a turn starts. -/
structure Buffered (limit : Nat) (reads : List Read) (start : TurnStart) : Prop where
  /-- What was taken and what is left are the stream. -/
  stream : content reads = start.taken ++ content start.reads
  /-- The buffer holds the bytes that were taken since the last newline. -/
  frame : start.frame = unfinished start.taken
  /-- There is no newline among them. -/
  noNewline : newline ∉ start.frame
  /-- They are within the limit. -/
  fits : start.frame.length ≤ limit

/-! ### Behind the last newline -/

theorem unfinished_of_no_newline {piece : List UInt8} (h : newline ∉ piece) :
    unfinished piece = piece := by
  refine (wholeLines_of_no_newline (List.dropWhile_eq_nil_iff.mpr fun byte hbyte => ?_)).2
  simpa using ne_of_mem_of_not_mem hbyte h

theorem unfinished_behind (before after : List UInt8) :
    unfinished (before ++ newline :: after) = unfinished after := by
  have hne := List.splitOn_ne_nil newline after
  rw [unfinished, unfinished, List.splitOn_append_cons_self, List.getLastD_eq_getLast?,
    List.getLastD_eq_getLast?, List.getLast?_append, List.getLast?_eq_some_getLast hne]
  rfl

/-- Bytes without a newline go on behind the last newline. -/
theorem unfinished_append {piece : List UInt8} (before : List UInt8) (h : newline ∉ piece) :
    unfinished (before ++ piece) = unfinished before ++ piece := by
  induction before using List.reverseRecOn generalizing piece with
  | nil => rw [List.nil_append, unfinished_of_no_newline h]; rfl
  | append_singleton before byte ih =>
    rw [List.append_assoc, List.singleton_append]
    by_cases hbyte : byte = newline
    · subst hbyte
      rw [unfinished_behind, unfinished_behind, unfinished_of_no_newline h]
      rfl
    · have hsingle : newline ∉ [byte] := by simpa using Ne.symm hbyte
      have hcons : newline ∉ byte :: piece := by simp [Ne.symm hbyte, h]
      rw [ih hcons, ih hsingle, List.append_assoc, List.singleton_append]

/-! ### The invariant -/

variable {start : TurnStart}

/-- **A turn keeps the invariant**, whether the loop goes on or the next call begins. -/
theorem Buffered.turn (h : Buffered limit reads start) :
    (∀ rest, (start.turn limit).onward = .again rest →
        Buffered limit reads
          ⟨start.taken ++ (start.turn limit).taken, (start.turn limit).buffer, rest⟩) ∧
      ∀ line rest, (start.turn limit).onward = .done (.line line rest) →
        Buffered limit reads ⟨start.taken ++ (start.turn limit).taken, [], rest⟩ := by
  obtain ⟨taken, frame, left⟩ := start
  obtain ⟨hstream, hframe, hnewline, hfits⟩ := h
  dsimp only at hstream hframe hnewline hfits
  have hturn := turn_of limit frame left
  rw [TurnStart.turn]
  dsimp only
  generalize Transport.turn limit frame left = t at hturn
  cases hturn with
  | ended | failed | longPart | longLine =>
    constructor
    · intro rest h
      cases h
    · intro line rest h
      cases h
  | interrupted =>
    constructor
    · intro rest h
      cases h
      rw [List.append_nil]
      exact ⟨hstream, hframe, hnewline, hfits⟩
    · intro line rest h
      cases h
  | @part piece rest hpiece hlength =>
    constructor
    · intro rest h
      cases h
      refine ⟨?_, ?_, fun hmem => ?_, hlength⟩
      · rw [hstream, content, List.append_assoc]
      · rw [unfinished_append taken hpiece, hframe]
      · exact (List.mem_append.mp hmem).elim hnewline hpiece
    · intro line rest h
      cases h
  | @line piece after rest hpiece hlength =>
    constructor
    · intro rest h
      cases h
    · intro line rest h
      cases h
      refine ⟨?_, ?_, List.not_mem_nil, Nat.zero_le _⟩
      · rw [hstream, content, content]
        simp only [List.append_assoc, List.cons_append, List.nil_append]
      · rw [← List.append_assoc, unfinished_behind]
        rfl

/-- **The invariant holds wherever a turn starts.** -/
theorem Reached.buffered (h : Reached limit reads start) : Buffered limit reads start := by
  induction h with
  | first => exact ⟨rfl, rfl, List.not_mem_nil, Nat.zero_le _⟩
  | again before onward ih => exact ih.turn.1 _ onward
  | next before onward ih => exact ih.turn.2 _ _ onward

/-! ## Whole calls -/

/-- Where the loop goes on, the call comes to what it comes to from there. -/
theorem readFrame_again {rest : List Read} (h : (start.turn limit).onward = .again rest) :
    readFrame limit start.frame start.reads = readFrame limit (start.turn limit).buffer rest := by
  rw [TurnStart.turn] at h ⊢
  rw [readFrame_eq_turn, h]

theorem readFrame_done {result : FrameResult} (h : (start.turn limit).onward = .done result) :
    readFrame limit start.frame start.reads = result := by
  rw [TurnStart.turn] at h
  rw [readFrame_eq_turn, h]

/-- Where the loop goes on, all that was taken is in the buffer, and fewer reads are left. -/
theorem buffer_of_again {rest : List Read} (h : (start.turn limit).onward = .again rest) :
    (start.turn limit).buffer = start.frame ++ (start.turn limit).taken ∧
      rest.length < start.reads.length := by
  obtain ⟨taken, frame, left⟩ := start
  have hturn := turn_of limit frame left
  rw [TurnStart.turn] at h ⊢
  dsimp only at h ⊢
  generalize turn limit frame left = t at hturn h
  cases hturn with
  | interrupted =>
    cases h
    exact ⟨(List.append_nil _).symm, Nat.lt_succ_self _⟩
  | part =>
    cases h
    exact ⟨rfl, Nat.lt_succ_self _⟩
  | _ => cases h

/-- The start of the last turn of a call: what the call took before is `more`. -/
structure LastTurn (limit : Nat) (reads : List Read) (start last : TurnStart) (more : List UInt8) :
    Prop where
  reached : Reached limit reads last
  taken : last.taken = start.taken ++ more
  frame : last.frame = start.frame ++ more
  onward : (last.turn limit).onward = .done (readFrame limit start.frame start.reads)

/-- **A call comes to what its last turn comes to.** Up to there it has only added to the buffer.
The induction is on the reads that are left. -/
theorem Reached.exists_last {start : TurnStart} (h : Reached limit reads start) :
    ∃ last more, LastTurn limit reads start last more := by
  cases honward : (start.turn limit).onward with
  | done result =>
    refine ⟨start, [], h, (List.append_nil _).symm, (List.append_nil _).symm, ?_⟩
    rw [honward, readFrame_done honward]
  | again rest =>
    obtain ⟨hbuffer, hfewer⟩ := buffer_of_again honward
    obtain ⟨last, more, hlast, htaken, hframe, hdone⟩ := (h.again honward).exists_last
    refine ⟨last, (start.turn limit).taken ++ more, hlast, ?_, ?_, ?_⟩
    · rw [htaken, List.append_assoc]
    · rw [hframe, hbuffer, List.append_assoc]
    · rw [readFrame_again honward]
      exact hdone
termination_by start.reads.length

/-- A call takes at most the limit and one read. -/
theorem LastTurn.bounded {last : TurnStart} {more : List UInt8}
    (h : LastTurn limit reads start last more) :
    (more ++ (last.turn limit).taken).length ≤ limit + nextSize last.reads := by
  have hfits := h.reached.buffered.fits
  obtain ⟨piece, hkeeps⟩ := exists_keeps limit last.frame last.reads
  have hsize := hkeeps.size
  rw [h.frame, List.length_append] at hfits
  rw [TurnStart.turn, List.length_append]
  omega

/-- Where a call ends with a whole line, the next call starts. -/
theorem Reached.call (h : Reached limit reads start) {line : List UInt8} {rest : List Read}
    (hline : readFrame limit start.frame start.reads = .line line rest) :
    ∃ taken, Reached limit reads ⟨taken, [], rest⟩ := by
  obtain ⟨last, more, hlast⟩ := h.exists_last
  exact ⟨_, hlast.reached.next (hlast.onward.trans (congrArg _ hline))⟩

/-- **A line without an end is refused**, whatever follows the bytes that exceed the limit. -/
theorem readFrame_of_endless {before after : List Read} (calm : Undisturbed before)
    (hline : newline ∉ content before) (hlong : limit < frame.length + (content before).length)
    (hframe : frame.length ≤ limit) : readFrame limit frame (before ++ after) = .tooLong := by
  induction before generalizing frame with
  | nil =>
    rw [content, List.length_nil] at hlong
    omega
  | cons read before ih =>
    cases read with
    | failed reason => exact absurd List.mem_cons_self (calm reason)
    | interrupted =>
      rw [List.cons_append, readFrame]
      exact ih calm.tail hline hlong hframe
    | bytes data =>
      obtain ⟨hdata, hline⟩ := not_or.mp (mt List.mem_append.mpr hline)
      have hdrop : data.dropWhile (· != newline) = [] := List.dropWhile_eq_nil_iff.mpr
        fun byte hbyte => by simpa using ne_of_mem_of_not_mem hbyte hdata
      rw [content, List.length_append] at hlong
      rw [List.cons_append, readFrame, takeWhile_eq_self hdrop, hdrop]
      dsimp only
      split
      next => rfl
      next hfits =>
        refine ih calm.tail hline ?_ (Nat.le_of_not_lt hfits)
        rw [List.length_append]
        omega

/-- **The buffer stays bounded while a line is incomplete.** Wherever a turn of the loop starts, in
whichever call, the buffer holds exactly the bytes taken since the last newline, has no newline and
is within the limit. The turn takes the buffer beyond the limit by at most one read, and every byte
that it takes is in the buffer or is the newline. The call takes at most the limit and one read from
there; where it gives a line, the next call starts. As soon as more bytes than the limit arrive
without a newline the line is refused, whatever follows them. -/
theorem buffer_bounded (limit : Nat) (reads : List Read) (start : TurnStart)
    (h : Reached limit reads start) :
    Buffered limit reads start ∧
      (∃ piece, (start.turn limit).Keeps start.frame start.reads piece) ∧
      (start.turn limit).buffer.length ≤ limit + nextSize start.reads ∧
      (∃ last more, LastTurn limit reads start last more ∧
        (more ++ (last.turn limit).taken).length ≤ limit + nextSize last.reads) ∧
      (∀ line rest, readFrame limit start.frame start.reads = .line line rest →
        ∃ taken, Reached limit reads ⟨taken, [], rest⟩) ∧
      ∀ before after, start.reads = before ++ after → Undisturbed before →
        newline ∉ content before → limit < start.frame.length + (content before).length →
          readFrame limit start.frame start.reads = .tooLong := by
  have hfits := h.buffered.fits
  obtain ⟨piece, hkeeps⟩ := exists_keeps limit start.frame start.reads
  obtain ⟨last, more, hlast⟩ := h.exists_last
  refine ⟨h.buffered, ⟨piece, hkeeps⟩, ?_, ⟨last, more, hlast, hlast.bounded⟩,
    fun line rest => h.call, ?_⟩
  · have hsize := hkeeps.size
    have htaken := hkeeps.piece_le
    rw [TurnStart.turn, hkeeps.buffer, List.length_append]
    omega
  · intro before after hreads calm hline hlong
    rw [hreads]
    exact readFrame_of_endless calm hline hlong hfits

/-- A line of one byte, and then one that goes on from read to read. -/
def growingReads : List Read :=
  [.bytes [97, 10, 98], .interrupted, .bytes [99], .bytes [100, 101], .bytes [102, 10]]

/-- Where the second line fills a limit of two bytes. -/
def filledStart : TurnStart := ⟨[97, 10, 98, 99], [98, 99], growingReads.drop 3⟩

theorem reached_filledStart : Reached 2 growingReads filledStart := by
  have hsecond : Reached 2 growingReads ⟨[97, 10], [], .bytes [98] :: growingReads.drop 1⟩ :=
    Reached.first.next rfl
  have hpart : Reached 2 growingReads ⟨[97, 10, 98], [98], growingReads.drop 1⟩ :=
    hsecond.again rfl
  have hpart' : Reached 2 growingReads ⟨[97, 10, 98], [98], growingReads.drop 2⟩ :=
    hpart.again rfl
  exact hpart'.again rfl

theorem buffer_bounded_filledStart :
    Reached 2 growingReads filledStart ∧ Buffered 2 growingReads filledStart ∧
      (filledStart.turn 2).buffer.length ≤ 2 + 2 ∧
      readFrame 2 filledStart.frame filledStart.reads = .tooLong := by
  obtain ⟨hbuffered, -, hbuffer, -, -, hendless⟩ :=
    buffer_bounded 2 growingReads filledStart reached_filledStart
  refine ⟨reached_filledStart, hbuffered, hbuffer,
    hendless [.bytes [100, 101]] [.bytes [102, 10]] rfl ?_ (by decide) (by decide)⟩
  intro reason
  simp

end CavityConsole.Transport

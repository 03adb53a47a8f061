import CavityConsole.Proofs.Transport.Framing

/-!
# The frames of a stream

`frames` takes frame after frame with `readFrame` until there is none, and keeps what it ends with.
Within the limit the frames are the whole lines of the stream, wherever the pieces end
(`frames_eq_wholeLines`), so lines that were joined with a newline behind each come apart again
(`frames_joined`).

The bytes of a text hold a byte below the space only for a character below the space, so texts
without control characters can be joined.
-/

namespace CavityConsole.Transport

/-- Takes frames until there is none; also what the last attempt ends with. -/
def frames (limit : Nat) (reads : List Read) : List (List UInt8) × FrameResult :=
  match _taken : readFrame limit [] reads with
  | .line frame rest => ((frame :: (frames limit rest).1), (frames limit rest).2)
  | last => ([], last)
termination_by bytesLeft reads
decreasing_by all_goals exact bytesLeft_lt_of_line ‹_›

/-- **Within the limit the frames are the whole lines of the stream**, wherever the pieces end. -/
theorem frames_eq_wholeLines (limit : Nat) (reads : List Read) (calm : Undisturbed reads)
    (hlines : ∀ line ∈ wholeLines (content reads), line.length ≤ limit)
    (hrest : (unfinished (content reads)).length ≤ limit) :
    frames limit reads = (wholeLines (content reads), .ended) := by
  fun_induction frames limit reads with
  | case1 reads frame rest hframe ih =>
    obtain ⟨hwhole, hunfinished, -, hcalm⟩ := stream_of_line calm hframe
    rw [hwhole] at hlines ⊢
    rw [hunfinished] at hrest
    have hnext := ih hcalm (List.forall_mem_cons.mp hlines).2 hrest
    rw [hnext]
  | case2 reads hnone =>
    have hfirst := collected_fresh limit calm
    cases hlast : readFrame limit [] reads with
    | line frame rest => exact (hnone frame rest hlast).elim
    | ended => rw [(stream_of_ended calm hlast).1]
    | failed reason =>
      rw [hlast] at hfirst
      exact hfirst.elim
    | tooLong =>
      -- the line that is too long is the first one, or the unfinished one
      rw [hlast] at hfirst
      change limit < _ at hfirst
      cases hafter : (content reads).dropWhile (· != newline) with
      | nil =>
        rw [takeWhile_eq_self hafter] at hfirst
        rw [(wholeLines_of_no_newline hafter).2] at hrest
        omega
      | cons byte after =>
        rw [(wholeLines_of_newline hafter).1] at hlines
        have hfits := (List.forall_mem_cons.mp hlines).1
        omega

/-! ## Joined lines -/

theorem dropWhile_line {line : List UInt8} (h : newline ∉ line) (rest : List UInt8) :
    (line ++ newline :: rest).takeWhile (· != newline) = line ∧
      (line ++ newline :: rest).dropWhile (· != newline) = newline :: rest := by
  have hline : ∀ byte ∈ line, (byte != newline) = true := by
    intro byte hbyte
    simpa using ne_of_mem_of_not_mem hbyte h
  rw [List.takeWhile_append_of_pos hline, List.dropWhile_append_of_pos hline]
  simp

theorem wholeLines_joined {lines : List (List UInt8)} (h : ∀ line ∈ lines, newline ∉ line) :
    wholeLines (lines.flatMap (· ++ [newline])) = lines ∧
      unfinished (lines.flatMap (· ++ [newline])) = [] := by
  induction lines with
  | nil => exact wholeLines_of_no_newline rfl
  | cons line lines ih =>
    obtain ⟨hline, hlines⟩ := List.forall_mem_cons.mp h
    obtain ⟨hwhole, hunfinished⟩ := ih hlines
    obtain ⟨htake, hdrop⟩ := dropWhile_line hline (lines.flatMap (· ++ [newline]))
    obtain ⟨hfirst, hrest⟩ := wholeLines_of_newline hdrop
    rw [List.flatMap_cons, List.append_assoc, List.singleton_append, hfirst, hrest, htake, hwhole]
    exact ⟨rfl, hunfinished⟩

/-- **Joined lines come apart again**, wherever the pieces end. -/
theorem frames_joined {limit : Nat} {reads : List Read} {lines : List (List UInt8)}
    (calm : Undisturbed reads) (hcontent : content reads = lines.flatMap (· ++ [newline]))
    (hnewline : ∀ line ∈ lines, newline ∉ line) (hfits : ∀ line ∈ lines, line.length ≤ limit) :
    frames limit reads = (lines, .ended) := by
  obtain ⟨hwhole, hunfinished⟩ := wholeLines_joined hnewline
  have hframes := frames_eq_wholeLines limit reads calm
  rw [hcontent, hwhole, hunfinished] at hframes
  exact hframes hfits (Nat.zero_le limit)

/-! ## The bytes of a text -/

/-- The bytes of a text. -/
def bytesOf (text : String) : List UInt8 := text.toUTF8.data.toList

theorem bytesOf_eq (text : String) : bytesOf text = text.toList.flatMap String.utf8EncodeChar := by
  have hbytes : text.toUTF8 = text.toList.utf8Encode := String.utf8Encode_toList.symm
  rw [bytesOf, hbytes, List.utf8Encode, List.data_toByteArray]

/-- A text is read back from its bytes. -/
theorem text?_bytesOf (text : String) : text? (bytesOf text) = some text := by
  have hbytes : (⟨(bytesOf text).toArray⟩ : ByteArray) = text.toByteArray := by
    rw [bytesOf, Array.toArray_toList]
    rfl
  rw [text?, hbytes, String.fromUTF8?, dif_pos text.isValidUTF8]
  rfl

theorem plain_utf8EncodeChar {c : Char} (h : 0x20 ≤ c.toNat) :
    ∀ byte ∈ String.utf8EncodeChar c, 0x20 ≤ byte.toNat := by
  have hvalue : 0x20 ≤ c.val.toNat := h
  unfold String.utf8EncodeChar
  dsimp only
  -- one byte is the character itself, every byte of a longer character is large
  repeat' split
  all_goals
    simp only [List.mem_cons, List.not_mem_nil, or_false, forall_eq_or_imp, forall_eq,
      UInt8.toNat_ofNat']
    omega

/-- A text without control characters has no byte below the space. -/
theorem plain_bytesOf {text : String} (h : ∀ c ∈ text.toList, 0x20 ≤ c.toNat) :
    ∀ byte ∈ bytesOf text, 0x20 ≤ byte.toNat := by
  intro byte hbyte
  rw [bytesOf_eq] at hbyte
  obtain ⟨c, hc, hbyte⟩ := List.mem_flatMap.mp hbyte
  exact plain_utf8EncodeChar (h c hc) byte hbyte

/-- Bytes from the space on end in no carriage return. -/
theorem stripReturn_of_plain {frame : List UInt8} (h : ∀ byte ∈ frame, 0x20 ≤ byte.toNat) :
    stripReturn frame = frame := by
  refine if_neg fun hlast => ?_
  have hbyte := h _ (List.mem_of_getLast? hlast)
  exact absurd hbyte (by decide)

end CavityConsole.Transport

import CavityConsole.Proofs.Dispatch.Delivery
import CavityConsole.Proofs.Transport.Frames

/-!
# The two ways to end a line

A line ends in a newline, and a carriage return may stand in front of the newline. The return is
dropped before the line is looked at, so it has no part in what the line is taken for
(`ofBytes_return_of_ne`). It is a byte of the frame all the same, and the limit is about frames: a
line of exactly as many bytes as the limit is too long with a return and not without one
(`ofBytes_return_of_eq`).

**The law** (`readLines_lineEndings`): reading the same lines with the two endings comes to the same
unless it gets to a line of exactly as many bytes as the limit; at the first such line the reading
with returns ends, and the other one goes on.

The line of exactly the limit is real (`readLines_differ_at_limit`), so the reservation cannot be
dropped.
-/

namespace CavityConsole.Transport

/-- A line without its ending. -/
structure Bare (line : List UInt8) : Prop where
  newline : newline ∉ line
  carriageReturn : carriageReturn ∉ line

instance (line : List UInt8) : Decidable (Bare line) :=
  decidable_of_iff (Transport.newline ∉ line ∧ Transport.carriageReturn ∉ line)
    ⟨fun h => ⟨h.1, h.2⟩, fun h => ⟨h.1, h.2⟩⟩

/-- A line with a carriage return behind it. -/
def withReturn (line : List UInt8) : List UInt8 := line ++ [carriageReturn]

/-! ## One line -/

section

variable {line : List UInt8}

theorem length_withReturn (line : List UInt8) : (withReturn line).length = line.length + 1 :=
  List.length_append

theorem stripReturn_withReturn (line : List UInt8) : stripReturn (withReturn line) = line := by
  rw [stripReturn, withReturn, List.getLast?_concat, if_pos rfl, List.dropLast_concat]

theorem Bare.stripReturn (bare : Bare line) : stripReturn line = line :=
  if_neg fun hlast => bare.carriageReturn (List.mem_of_getLast? hlast)

theorem Bare.withReturn_no_newline (bare : Bare line) :
    Transport.newline ∉ withReturn line := by
  intro hmem
  rcases List.mem_append.mp hmem with hline | hreturn
  · exact bare.newline hline
  · exact absurd (List.mem_singleton.mp hreturn) (by decide)

variable {limit : Nat}

/-- A line is too long exactly when its frame exceeds the limit. -/
theorem ofBytes_tooLong_iff (limit : Nat) (bytes : List UInt8) :
    Line.ofBytes limit bytes = .fault (.lineTooLong limit) ↔ limit < bytes.length := by
  rw [Line.ofBytes]
  split
  next hlong => exact ⟨fun _ => hlong, fun _ => rfl⟩
  next hfits =>
    refine ⟨fun h => ?_, fun h => absurd h hfits⟩
    split at h
    · cases h
    · split at h <;> cases h

/-- **Away from the limit a return makes no difference** to what a line is taken for. -/
theorem ofBytes_return_of_ne (bare : Bare line) (h : line.length ≠ limit) :
    Line.ofBytes limit (withReturn line) = Line.ofBytes limit line := by
  have hlength := length_withReturn line
  have hlong : limit < (withReturn line).length ↔ limit < line.length := by omega
  rw [Line.ofBytes, Line.ofBytes, stripReturn_withReturn, bare.stripReturn]
  simp only [hlong]

/-- **At the limit a return makes a line too long.** -/
theorem ofBytes_return_of_eq (h : line.length = limit) :
    Line.ofBytes limit (withReturn line) = .fault (.lineTooLong limit) := by
  have hlength := length_withReturn line
  exact (ofBytes_tooLong_iff limit _).mpr (by omega)

end

/-! ## Line after line -/

section

variable {σ : Type} {limit : Nat} {handle : σ → String → σ × LineOutcome}

/-- The lines behind others are read when nothing before ends the reading. -/
theorem readWhole_append (rest : List UInt8) (state : σ) (before behind : List (List UInt8)) :
    readWhole limit handle rest state (before ++ behind) =
      match readWhole limit handle [] state before with
      | (state, .closed) => readWhole limit handle rest state behind
      | ended => ended := by
  induction before generalizing state with
  | nil => rfl
  | cons bytes before ih =>
    rw [List.cons_append, readWhole, readWhole]
    cases Line.ofBytes limit bytes with
    | fault error => rfl
    | blank => exact ih state
    | text line =>
      dsimp only
      rcases handle state line with ⟨after, outcome⟩
      cases outcome with
      | dispatched => exact ih after
      | refused error => rfl
      | brokeDown => rfl

/-- **Lines away from the limit are read alike**, with returns and without. -/
theorem readWhole_withReturn {lines : List (List UInt8)} (bare : ∀ line ∈ lines, Bare line)
    (h : ∀ line ∈ lines, line.length ≠ limit) (rest : List UInt8) (state : σ) :
    readWhole limit handle rest state (lines.map withReturn) =
      readWhole limit handle rest state lines := by
  induction lines generalizing state with
  | nil => rfl
  | cons line lines ih =>
    obtain ⟨hbare, hlines⟩ := List.forall_mem_cons.mp bare
    obtain ⟨hline, hothers⟩ := List.forall_mem_cons.mp h
    rw [List.map_cons, readWhole, readWhole, ofBytes_return_of_ne hbare hline]
    simp only [ih hlines hothers]

/-- The first line of exactly as many bytes as the limit, and the lines around it. -/
structure FirstFull (limit : Nat) (lines before : List (List UInt8)) (line : List UInt8)
    (behind : List (List UInt8)) : Prop where
  split : lines = before ++ line :: behind
  full : line.length = limit
  first : ∀ other ∈ before, other.length ≠ limit

/-- There is only one place to cut. -/
theorem FirstFull.before_eq {lines before behind : List (List UInt8)} {line : List UInt8}
    (h : FirstFull limit lines before line behind) :
    before = lines.takeWhile (·.length != limit) := by
  have hbefore : ∀ other ∈ before, (other.length != limit) = true := fun other hother =>
    bne_iff_ne.mpr (h.first other hother)
  have hline : (line.length != limit) = false := bne_eq_false_iff_eq.mpr h.full
  rw [h.split, List.takeWhile_append_of_pos hbefore, List.takeWhile_cons, hline]
  exact (List.append_nil before).symm

/-- Reading gets to the first line of exactly the limit, in a state that the lines before it leave
behind. -/
structure Reaches (limit : Nat) (handle : σ → String → σ × LineOutcome) (start : σ)
    (lines before : List (List UInt8)) (line : List UInt8) (behind : List (List UInt8))
    (state : σ) : Prop extends FirstFull limit lines before line behind where
  /-- The lines before it do not end the reading. -/
  passed : readWhole limit handle [] start before = (state, .closed)

/-- What reading the same lines comes to, with a newline behind each and with a return in front of
each newline. -/
inductive Endings (limit : Nat) (handle : σ → String → σ × LineOutcome) (start : σ)
    (lines : List (List UInt8)) : σ × ReaderExit → σ × ReaderExit → Prop where
  /-- No line of exactly the limit is reached, and there is no difference. -/
  | same {result : σ × ReaderExit}
    (unreached : ∀ before line behind state,
      ¬ Reaches limit handle start lines before line behind state) :
    Endings limit handle start lines result result
  /-- The first line of exactly the limit is too long with its return, and without it the reading
  goes on from there. -/
  | full {before behind : List (List UInt8)} {line : List UInt8} {state : σ}
    (reached : Reaches limit handle start lines before line behind state) :
    Endings limit handle start lines (readWhole limit handle [] state (line :: behind))
      (state, .failed (.lineTooLong limit))

/-- **The two readings of whole lines.** The lines are cut in front of the first one of exactly the
limit; up to there the readings are alike, and that line is read only when they have not ended. -/
theorem endings_readWhole {lines : List (List UInt8)} (bare : ∀ line ∈ lines, Bare line)
    (start : σ) :
    Endings limit handle start lines (readWhole limit handle [] start lines)
      (readWhole limit handle [] start (lines.map withReturn)) := by
  cases hfind : lines.find? (·.length == limit) with
  | none =>
    have hnone : ∀ line ∈ lines, line.length ≠ limit := by simpa using hfind
    rw [readWhole_withReturn bare hnone]
    refine .same fun before line behind state reached => ?_
    have hmem : line ∈ lines := by
      rw [reached.split]
      exact List.mem_append_right _ List.mem_cons_self
    exact hnone line hmem reached.full
  | some line =>
    obtain ⟨hline, before, behind, rfl, hbefore⟩ := List.find?_eq_some_iff_append.mp hfind
    have hcut : FirstFull limit (before ++ line :: behind) before line behind :=
      ⟨rfl, beq_iff_eq.mp hline, by simpa using hbefore⟩
    have halike := @readWhole_withReturn _ _ handle _
      (fun other hother => bare other (List.mem_append_left _ hother)) hcut.first [] start
    rw [List.map_append, List.map_cons, readWhole_append, readWhole_append, halike]
    cases hpassed : readWhole limit handle [] start before with
    | mk state exit =>
      by_cases hclosed : exit = .closed
      · subst hclosed
        have hreturned : readWhole limit handle [] state
            (withReturn line :: behind.map withReturn) =
              (state, .failed (.lineTooLong limit)) := by
          rw [readWhole, ofBytes_return_of_eq hcut.full]
        dsimp only
        rw [hreturned]
        exact .full ⟨hcut, hpassed⟩
      · have hended : ∀ after : σ → σ × ReaderExit,
            (match (state, exit) with
              | (state, .closed) => after state
              | ended => ended) = (state, exit) := by
          intro after
          cases exit with
          | closed => exact absurd rfl hclosed
          | failed | brokenDown => rfl
        rw [hended, hended]
        refine .same fun before' line' behind' state' reached => hclosed ?_
        -- the reading has ended before the only place to cut
        have hbefore : before' = before := reached.before_eq.trans hcut.before_eq.symm
        have hexit := reached.passed
        rw [hbefore, hpassed] at hexit
        exact congrArg Prod.snd hexit

end

/-! ## Whatever arrives -/

/-- **The ending of lines matters at the limit and nowhere else.** Whatever the pieces in which the
same lines arrive with either ending, and whoever listens, the two readings dispatch the same lines
in the same order and end alike, unless they get to a line of exactly as many bytes as the limit;
then the one with returns ends there, and the other one goes on. A line is too long with a newline
behind it when it has more bytes than the limit, and with a return in front of the newline also when
it has as many. -/
theorem readLines_lineEndings {ν ρ σ : Type} (dispatcher : Dispatcher ν ρ)
    (note : σ → LogEntry → σ) (hear : σ → Delivery ν ρ → Except σ σ) (limit : Nat) (state : σ)
    {lines : List (List UInt8)} {plain returned : List Read} (bare : ∀ line ∈ lines, Bare line)
    (calm : Undisturbed plain) (calm' : Undisturbed returned)
    (hplain : content plain = lines.flatMap (· ++ [newline]))
    (hreturned : content returned = lines.flatMap (· ++ [carriageReturn, newline])) :
    Endings limit (dispatcher.dispatchLine note hear) state lines
        (readLines limit (dispatcher.dispatchLine note hear) state plain)
        (readLines limit (dispatcher.dispatchLine note hear) state returned) ∧
      ∀ line, Bare line →
        (Line.ofBytes limit line = .fault (.lineTooLong limit) ↔ limit < line.length) ∧
        (Line.ofBytes limit (withReturn line) = .fault (.lineTooLong limit) ↔
          limit ≤ line.length) := by
  obtain ⟨hlines, hrest⟩ := wholeLines_joined fun line hline => (bare line hline).newline
  have hjoined : lines.flatMap (· ++ [carriageReturn, newline]) =
      (lines.map withReturn).flatMap (· ++ [newline]) := by
    simp only [List.flatMap_map, withReturn, List.append_assoc, List.singleton_append]
  have hapart : ∀ line ∈ lines.map withReturn, newline ∉ line :=
    List.forall_mem_map.mpr fun line hline => (bare line hline).withReturn_no_newline
  obtain ⟨hlines', hrest'⟩ := wholeLines_joined hapart
  refine ⟨?_, fun line _ => ⟨ofBytes_tooLong_iff limit line, ?_⟩⟩
  · rw [readLines_eq_readWhole _ _ _ _ calm, readLines_eq_readWhole _ _ _ _ calm', hplain,
      hreturned, hjoined, hlines, hrest, hlines', hrest']
    exact endings_readWhole bare state
  · rw [ofBytes_tooLong_iff, length_withReturn, Nat.lt_succ_iff]

/-- Counts what one listener hears. -/
def counting : Nat → String → Nat × LineOutcome :=
  ({ notificationListeners := ⟨[()]⟩ } : Dispatcher Unit Unit).dispatchLine
    (fun heard _ => heard) (fun heard _ => .ok (heard + 1))

/-- Three objects, of which the second has three bytes; the third is never read with returns. -/
def threeObjects : List (List UInt8) := [[123, 125], [123, 32, 125], [123, 125]]

theorem readLines_lineEndings_threeObjects :
    (∀ line ∈ threeObjects, Bare line) ∧
      Endings 3 counting 0 threeObjects
        (readLines 3 counting 0 [.bytes [123, 125, 10, 123], .bytes [32, 125, 10, 123, 125, 10]])
        (readLines 3 counting 0
          [.bytes [123, 125, 13], .interrupted, .bytes [10, 123, 32, 125, 13],
           .bytes [10, 123, 125, 13, 10]]) := by
  have bare : ∀ line ∈ threeObjects, Bare line := by decide
  refine ⟨bare, (readLines_lineEndings _ _ _ 3 0 bare ?_ ?_ rfl rfl).1⟩
  · intro reason
    simp
  · intro reason
    simp

/-- An object of two bytes within a limit of two bytes is dispatched with a newline behind it, and
with a return in front of the newline it is too long. -/
theorem readLines_differ_at_limit :
    Bare [123, 125] ∧
      readLines 2 counting 0 [.bytes ([123, 125] ++ [newline])] = (1, .closed) ∧
      readLines 2 counting 0 [.bytes ([123, 125] ++ [carriageReturn, newline])] =
        (0, .failed (.lineTooLong 2)) ∧
      Line.ofBytes 2 [123, 125] ≠ .fault (.lineTooLong 2) ∧
      Line.ofBytes 2 (withReturn [123, 125]) = .fault (.lineTooLong 2) := by
  have calm : ∀ data, Undisturbed [.bytes data] := by
    intro data reason
    simp
  refine ⟨by decide, ?_, ?_, ?_, ?_⟩
  · rw [readLines_eq_readWhole _ _ _ _ (calm _)]
    decide
  · rw [readLines_eq_readWhole _ _ _ _ (calm _)]
    decide
  · rw [ne_eq, ofBytes_tooLong_iff]
    decide
  · rw [ofBytes_tooLong_iff]
    decide

end CavityConsole.Transport

import CavityConsole.Proofs.Console.Correlation
import CavityConsole.Proofs.Session.Feeding
import CavityConsole.Session.Connection

/-!
# From the bytes of a server to the outcome of a command

A command waits while a reader works through a stream. The reader and the call take their steps in
turns that nobody fixes: a schedule is any order of both (`Interleaves`).

**The law** (`outcome_of_stream`): whatever the schedule, as long as the wait does not run out of
time, the command ends with the first response of the stream, wherever it stands between
notifications and however the reading ends, and is interrupted when there is none. Every command
whose window opens after the reader's end is interrupted or cannot be written.

The reader's part is `readerSteps_eq`, the call's part `outcome_of_window`. Between them stands one
fact: if a wait ends without a response because the connection is gone, all that the reader had to
deliver was delivered before (`responses_of_disconnected`).

**What it does not establish.** The law says nothing about a wait that runs out of time.
-/

namespace CavityConsole

open Transport Console

/-! ## Schedules -/

/-- An order of the steps of a call and of those of a reader. -/
structure Interleaves (own arrivals schedule : List Step) : Prop where
  /-- The steps of the call, in their order. -/
  own : schedule.filter (fun s => !s.isArrival) = own
  /-- The steps of the reader, in theirs. -/
  arrivals : schedule.filter Step.isArrival = arrivals

/-- A wait ends only when there is something to end it: a response or the loss of the connection. -/
def InTime (console : Console) : List Step → Prop
  | [] => True
  | s :: steps =>
    (s = .endWait → console.slot.pending ≠ none ∨ console.slot.connected = false) ∧
      InTime (console.step s).1 steps

theorem InTime.at {console : Console} {early late : List Step}
    (h : InTime console (early ++ .endWait :: late)) :
    (console.after early).slot.pending ≠ none ∨ (console.after early).slot.connected = false := by
  induction early generalizing console with
  | nil => exact h.1 rfl
  | cons s early ih => exact ih h.2

/-- A step of the call stands where nothing but arrivals stands before it. -/
theorem split_at_own {s : Step} {own schedule : List Step}
    (h : schedule.filter (fun s => !s.isArrival) = s :: own) :
    ∃ before after, schedule = before ++ s :: after ∧ (∀ s ∈ before, s.isArrival) ∧
      after.filter (fun s => !s.isArrival) = own := by
  obtain ⟨before, after, rfl, hbefore, -, hafter⟩ := List.filter_eq_cons_iff.mp h
  exact ⟨before, after, rfl, fun s hs => by simpa using hbefore s hs, hafter⟩

/-- A schedule of a call whose line is written. -/
theorem Interleaves.split {arrivals schedule : List Step}
    (h : Interleaves [.wrote, .endWait, .release] arrivals schedule) :
    ∃ opening waiting late rest,
      schedule = opening ++ .wrote :: waiting ++ .endWait :: late ++ .release :: rest ∧
      (∀ s ∈ opening, s.isArrival) ∧ (∀ s ∈ waiting, s.isArrival) ∧
      (∀ s ∈ late, s.isArrival) ∧ (∀ s ∈ rest, s.isArrival) := by
  obtain ⟨opening, afterOpening, rfl, hopening, hown⟩ := split_at_own h.own
  obtain ⟨waiting, afterWaiting, rfl, hwaiting, hown⟩ := split_at_own hown
  obtain ⟨late, rest, rfl, hlate, hown⟩ := split_at_own hown
  refine ⟨opening, waiting, late, rest, by simp, hopening, hwaiting, hlate, fun s hs => ?_⟩
  simpa using List.filter_eq_nil_iff.mp hown s hs

/-! ## Arrivals of a schedule -/

/-- What has been delivered of a stream is its beginning, and all of it once the connection is
gone. -/
theorem responses_of_disconnected {documents : List Document} {early late : List Step}
    (h : (early ++ late).filter Step.isArrival = documents.map .deliver ++ [.disconnect]) :
    deliveries early <+: documents ∧ (.disconnect ∈ early → deliveries early = documents) := by
  have hall : deliveries early ++ deliveries late = documents := by
    rw [← deliveries_append, ← deliveries_filter, h, deliveries_append, deliveries_map]
    exact List.append_nil documents
  refine ⟨⟨deliveries late, hall⟩, fun hmem => ?_⟩
  have hearly : .disconnect ∈ early.filter Step.isArrival := List.mem_filter.mpr ⟨hmem, rfl⟩
  rw [List.filter_append] at h
  rcases List.append_eq_append_iff.mp h with ⟨_, hmap, -⟩ | ⟨rest, hbefore, hlast⟩
  · have hdeliver : .disconnect ∈ documents.map Step.deliver :=
      hmap ▸ List.mem_append_left _ hearly
    obtain ⟨_, _, hne⟩ := List.mem_map.mp hdeliver
    cases hne
  · have hrest : deliveries rest = [] := by
      have hnil : deliveries (rest ++ late.filter Step.isArrival) = [] := hlast ▸ rfl
      rw [deliveries_append] at hnil
      exact (List.append_eq_nil_iff.mp hnil).1
    rw [← deliveries_filter, hbefore, deliveries_append, deliveries_map, hrest, List.append_nil]

/-! ## A command and a stream -/

/-- What a stream with these responses answers to a command. -/
def streamOutcome (command : Command) : List Document → Except CommandError Document
  | response :: _ => classify command.name response
  | [] => .error (.interrupted command.name)

/-- A wait that ends in time gives what the whole stream gives. -/
theorem answer_of_stream {console : Console} {early late : List Step} {documents : List Document}
    (command : Command) (timeout : Duration) (held : console.slot.connected = true)
    (arrivals : (early ++ late).filter Step.isArrival = documents.map .deliver ++ [.disconnect])
    (first : (console.after early).slot.pending = (deliveries early).head?)
    (inTime : (console.after early).slot.pending ≠ none ∨
      (console.after early).slot.connected = false) :
    answer command timeout (console.after early).slot.connected (deliveries early) =
      streamOutcome command documents := by
  obtain ⟨hbeginning, hall⟩ := responses_of_disconnected arrivals
  cases hearly : deliveries early with
  | cons response rest =>
    rw [hearly] at hbeginning
    obtain ⟨more, rfl⟩ := hbeginning
    rfl
  | nil =>
    rw [first, hearly] at inTime
    have lost : (console.after early).slot.connected = false :=
      inTime.resolve_left fun hne => hne rfl
    rw [← hall (disconnect_of_connected held lost), hearly, lost]
    rfl

/-- The line of a command is written among arrivals. -/
theorem written_of_arrivals {console : Console} {command : Command} {opening waiting : List Step}
    (opened : console.call = some ⟨command, .opened⟩)
    (hopening : ∀ s ∈ opening, s.isArrival) (hwaiting : ∀ s ∈ waiting, s.isArrival) :
    (console.after (opening ++ .wrote :: waiting)).call = some ⟨command, .written⟩ := by
  have hcall : (console.after opening).call = some ⟨command, .opened⟩ := by
    rw [call_after_arrivals hopening, opened]
  rw [after_append, after_cons, call_after_arrivals hwaiting, step, hcall]

/-- **A command ends with the first response of the stream**, whatever the schedule. -/
theorem outcomes_of_schedule {timeout : Duration} {earlier schedule : List Step}
    {command : Command} {documents : List Document}
    (drained : ((fresh timeout).after earlier).call = some ⟨command, .drained⟩)
    (held : ((fresh timeout).after earlier).slot.connected = true)
    (interleaves : Interleaves [.wrote, .endWait, .release]
      (documents.map .deliver ++ [.disconnect]) schedule)
    (inTime : InTime ((fresh timeout).after (earlier ++ [.begin])) schedule) :
    ((fresh timeout).after (earlier ++ [.begin])).outcomes schedule =
      [(command, some (streamOutcome command documents))] := by
  obtain ⟨opening, waiting, late, rest, rfl, hopening, hwaiting, hlate, hrest⟩ := interleaves.split
  have hbegin (steps : List Step) : (fresh timeout).after (earlier ++ .begin :: steps) =
      ((fresh timeout).after (earlier ++ [.begin])).after steps := by
    rw [List.append_cons, after_append]
  have hopened : (fresh timeout).after (earlier ++ [.begin]) = opened timeout true command := by
    rw [after_begin drained, held, after_nil]
  -- the schedule up to the end of the wait
  generalize hearly : opening ++ .wrote :: waiting = early at *
  have heldEarly : .release ∉ early := by
    rw [← hearly]
    simp [not_release_of_arrivals hopening, not_release_of_arrivals hwaiting]
  have heldLate : .release ∉ late := not_release_of_arrivals hlate
  have lasts : ((fresh timeout).after (earlier ++ [.begin])).Lasts early :=
    lasts_of_held (by rw [hopened]; exact Option.some_ne_none _) heldEarly
  have written : ((fresh timeout).after (earlier ++ .begin :: early)).call =
      some ⟨command, .written⟩ := by
    rw [hbegin, hopened, ← hearly]
    exact written_of_arrivals rfl hopening hwaiting
  -- the wait gives what the stream gives
  have hanswer : answer command timeout
      ((fresh timeout).after (earlier ++ .begin :: early)).slot.connected (deliveries early) =
        streamOutcome command documents := by
    have hfirst := pending_of_written drained lasts written
    have harrivals := interleaves.arrivals
    rw [List.append_assoc, List.cons_append] at inTime harrivals
    rw [hbegin] at hfirst ⊢
    exact answer_of_stream command timeout (hopened ▸ rfl) harrivals hfirst inTime.at
  have hfinished := outcome_of_window drained lasts written heldLate
  rw [hanswer, List.append_assoc, List.cons_append, hbegin] at hfinished
  rw [outcomes_append, outcomes_cons, hfinished, outcomes_of_held (by simp [heldEarly, heldLate]),
    outcomes_of_held (not_release_of_arrivals hrest)]
  rfl

/-! ## After the end of the reader -/

/-- What a command ends with when nobody reads any more. -/
def lateOutcome (command : Command) :
    Connection.WriteResult → Option (Except CommandError Document)
  | .written => some (.error (.interrupted command.name))
  | .failed reason => some (.error (.send command.name reason))
  | .brokeDown => none

/-- **After the end of the reader a command is interrupted or cannot be written.** -/
theorem outcomes_after_disconnect {timeout : Duration} {earlier later : List Step}
    {command : Command}
    (drained : ((fresh timeout).after (earlier ++ .disconnect :: later)).call =
      some ⟨command, .drained⟩) (result : Connection.WriteResult) :
    ((fresh timeout).after (earlier ++ .disconnect :: later)).outcomes
        (.begin :: Connection.stepsAfter result ++ [.release]) =
      [(command, lateOutcome command result)] := by
  have lost : ((fresh timeout).after (earlier ++ .disconnect :: later)).slot.connected = false := by
    rw [after_append, after_cons]
    exact lost_after rfl later
  rw [List.cons_append, outcomes_cons, finished_of_ne_release (s := .begin) _ nofun,
    (sound_after_fresh timeout _).step_begin drained, lost]
  cases result <;> rfl

theorem classify_accepted {response : Document} (command : String)
    (h : Members.get? response "response" = some (.string "ok")) :
    classify command response = .ok response := by
  simp only [classify, h]

theorem classify_rejected {response : Document} (command : String)
    (h : Members.get? response "response" ≠ some (.string "ok")) :
    classify command response =
      .error (.rejected command ((Members.get? response "message").bind Json.string?)) := by
  unfold classify
  split
  next hok => exact absurd hok h
  next => rfl

/-- **The outcome of a command is that of the stream.** Whatever the stream, its pieces, the
notifications in it and the schedule, a written command whose wait does not run out of time ends
with the first response on the lines that are dispatched, and is interrupted when there is none.
Every command whose window opens after the end of the reader is interrupted or cannot be written. A
response that is taken decides by its own members. -/
theorem outcome_of_stream (timeout : Duration) :
    (∀ (ν τ : Type) (limit : Nat) (listeners : List ν) (note : τ → LogEntry → τ)
        (heed : τ → ν → Notification → τ) (state : τ) (reads : List Read)
        (earlier schedule : List Step) (command : Command),
      Undisturbed reads →
      ((fresh timeout).after earlier).call = some ⟨command, .drained⟩ →
      ((fresh timeout).after earlier).slot.connected = true →
      Interleaves [.wrote, .endWait, .release]
        (readerSteps limit listeners note heed state reads) schedule →
      InTime ((fresh timeout).after (earlier ++ [.begin])) schedule →
      ((fresh timeout).after (earlier ++ [.begin])).outcomes schedule =
        [(command, some (streamOutcome command (responses limit (content reads))))]) ∧
    (∀ (earlier later : List Step) (command : Command) (result : Connection.WriteResult),
      ((fresh timeout).after (earlier ++ .disconnect :: later)).call =
        some ⟨command, .drained⟩ →
      ((fresh timeout).after (earlier ++ .disconnect :: later)).outcomes
          (.begin :: Connection.stepsAfter result ++ [.release]) =
        [(command, lateOutcome command result)]) ∧
    (∀ (command : String) (response : Document),
      (Members.get? response "response" = some (.string "ok") →
        classify command response = .ok response) ∧
      (Members.get? response "response" ≠ some (.string "ok") →
        classify command response =
          .error (.rejected command ((Members.get? response "message").bind Json.string?)))) := by
  refine ⟨?_, fun _ _ _ result drained => outcomes_after_disconnect drained result,
    fun command _ => ⟨classify_accepted command, classify_rejected command⟩⟩
  intro ν τ limit listeners note heed state reads earlier schedule command calm drained held
    interleaves inTime
  rw [readerSteps_eq listeners note heed limit state reads calm] at interleaves
  exact outcomes_of_schedule drained held interleaves inTime

/-- A rejection. -/
def busyResponse : Document := [("message", .string "busy"), ("response", .string "no")]

/-- Bytes cut inside a rejection and before its newline: an unknown document and a blank line stand
before it, a second response and a line that is no document behind it. -/
def busyReads : List Read :=
  ["\x7b\x7d\n\n\x7b\"respon", "se\":\"no\",\"message\":\"busy\"\x7d\r",
    "\n\x7b\"response\":\"ok\"\x7d\n]\n"].map fun piece => .bytes piece.toUTF8.data.toList

/-- The rejection arrives before the line is written, the second response while it is waited for. -/
def busySchedule : List Step :=
  [.deliver busyResponse, .wrote, .deliver [("response", .string "ok")], .endWait, .disconnect,
    .release]

theorem responses_busyReads :
    responses 40 (content busyReads) = [busyResponse, [("response", .string "ok")]] := by
  have hlines : dispatchable 40 (content busyReads) =
      ["\x7b\x7d", "\x7b\"response\":\"no\",\"message\":\"busy\"\x7d",
        "\x7b\"response\":\"ok\"\x7d"] := by
    decide +kernel
  have hempty : Document.ofLine "\x7b\x7d" = .ok [] := by cbv
  have hbusy : Document.ofLine "\x7b\"response\":\"no\",\"message\":\"busy\"\x7d" =
      .ok busyResponse := by cbv
  have hok : Document.ofLine "\x7b\"response\":\"ok\"\x7d" =
      .ok [("response", .string "ok")] := by cbv
  rw [responses, hlines]
  simp only [List.filterMap_cons, List.filterMap_nil, responseOf, hempty, hbusy, hok]
  rfl

theorem outcome_of_stream_busy :
    ((fresh defaultTimeout).after [.drain .stop, .begin]).outcomes busySchedule =
        [(.stop, some (.error (.rejected "stop" (some "busy"))))] ∧
      ((fresh defaultTimeout).after
          ([.drain .stop, .begin, .wrote] ++ .disconnect :: [.endWait, .release,
            .drain .version])).outcomes [.begin, .wrote, .endWait, .release] =
        [(.version, some (.error (.interrupted "version")))] := by
  obtain ⟨outcome, late, -⟩ := outcome_of_stream defaultTimeout
  refine ⟨?_, late _ _ .version .written rfl⟩
  have calm : Undisturbed busyReads := by intro reason; simp [busyReads]
  have interleaves : Interleaves [.wrote, .endWait, .release]
      (readerSteps 40 [()] (fun (heard : Nat) _ => heard) (fun heard _ _ => heard + 1) 0 busyReads)
      busySchedule := by
    refine ⟨rfl, ?_⟩
    rw [readerSteps_eq _ _ _ _ _ _ calm, responses_busyReads]
    rfl
  have inTime : InTime ((fresh defaultTimeout).after [.drain .stop, .begin]) busySchedule :=
    ⟨nofun, nofun, nofun, fun _ => .inl nofun, nofun, nofun, trivial⟩
  have h := outcome Unit Nat 40 [()] _ _ 0 busyReads [.drain .stop] busySchedule .stop calm rfl rfl
    interleaves inTime
  rw [responses_busyReads] at h
  exact h

end CavityConsole

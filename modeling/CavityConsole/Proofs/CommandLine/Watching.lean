import CavityConsole.CommandLine.Run
import CavityConsole.Proofs.CommandLine.Printing
import CavityConsole.Proofs.Session.Exchange
import Mathlib.Order.Monotone.Basic

/-!
# Watching loses and repeats nothing

Of all that a server sends, from the greeting to the end of reading, watching prints what the
dispatcher tells its one listener: each notification on a line, in the order of the lines that
brought them, wherever these stand around the responses that the opening of the session waits for.

**The law** (`watch_prints_all`): that is what is printed, nothing is missing and nothing comes
twice, and the exit code is zero exactly when the connection was closed without an error. It holds
for the run of the program, and for the two threads that it is made of: one reads and puts what it
hears into a queue, the other opens the session and then takes from the queue (`Watching`). However
these take turns, what is printed and what is queued together are what was told so far, and at the
end of reading they are all that there is. When neither thread is kept waiting forever, they come to
this end (`Watching.ends_of_fair`), and it is the one that the run of the program comes to
(`watched_of_fair`).

**What it does not establish.** That the threads get their turns at all.
-/

namespace CavityConsole

open Connection

/-- Notifications, one on each line. -/
def notificationLines (notifications : List Notification) : String :=
  String.join (notifications.map fun n => n.text ++ "\n")

theorem join_notificationPieces (notifications : List Notification) :
    String.join (notificationPieces notifications) = notificationLines notifications := by
  induction notifications with
  | nil => rfl
  | cons n notifications ih =>
    rw [notificationPieces] at ih
    rw [notificationPieces, List.flatMap_cons, String.join_append, ih, String.join_append,
      notificationLines, notificationLines, List.map_cons, String.join_cons]
    simp [Notification.text]

theorem calm_watcher : Calm [watcher] := by
  intro listener h
  rw [List.mem_singleton.mp h]
  rfl

/-- The one listener hears everything. -/
theorem hearings_watcher (notifications : List Notification) :
    Session.hearings [watcher] watcher.name notifications = notifications := by
  induction notifications with
  | nil => rfl
  | cons n notifications ih => exact congrArg (n :: ·) ih

/-! ## Two threads -/

/-- A thread that reads and a thread that prints. -/
structure Watching where
  /-- The connection. -/
  connection : Connection
  /-- What the server still has to send. -/
  incoming : List Arrival
  /-- How the reading ended, if it did. -/
  exit : Option ReaderExit := none
  /-- What is printed, in order. -/
  printed : List Notification := []

namespace Watching

/-- What happens next. -/
inductive Turn where
  /-- The reader takes what arrives next. -/
  | read
  /-- The other thread takes a step of a command; it opens the session. -/
  | call (s : Console.Step)
  /-- The other thread takes a notification from the queue and prints it. -/
  | print

/-- What went into the queue: what the listener was called with. -/
def delivered (watching : Watching) : List Notification :=
  watching.connection.events.filterMap (Session.heardBy watcher.name)

/-- What is still in the queue. -/
def queued (watching : Watching) : List Notification :=
  watching.delivered.drop watching.printed.length

/-- One turn. After the end of reading nothing is read, and from an empty queue nothing is taken. -/
def act (watching : Watching) : Turn → Watching
  | .read =>
    match watching.exit, watching.incoming with
    | none, arrival :: rest =>
      { watching with
        connection := (watching.connection.perform (Arrival.actions [arrival]).1).1
        incoming := rest
        exit := (Arrival.actions [arrival]).2 }
    | _, _ => watching
  | .call s => { watching with connection := (watching.connection.step s).1 }
  | .print => { watching with printed := watching.printed ++ watching.queued.head?.toList }

/-- A connection that was just made, with all that the server is going to send. -/
def start (timeout : Duration) (stream : List Arrival) : Watching where
  connection := .start timeout [watcher]
  incoming := stream

/-- Turns one after the other. -/
def run (watching : Watching) (turns : List Turn) : Watching := turns.foldl act watching

/-- What was read so far went into the queue, line by line, and the printing follows the queue. -/
structure Sound (read : List Arrival) (watching : Watching) : Prop where
  exit : watching.exit = Arrival.readingEnd read
  held : watching.exit = none → watching.connection.dispatcher = some (feeding [watcher])
  delivered : watching.delivered = notificationsOf (Arrival.dispatched read)
  printed : watching.printed <+: watching.delivered

theorem Sound.printed_queued {read : List Arrival} {watching : Watching}
    (sound : Sound read watching) :
    watching.printed ++ watching.queued = watching.delivered := by
  obtain ⟨rest, hrest⟩ := sound.printed
  rw [queued, ← hrest, List.drop_left]

/-- Reading takes the next arrival to the listener. -/
theorem Sound.read {read : List Arrival} {watching : Watching} (sound : Sound read watching)
    (reading : watching.exit = none) (arrival : Arrival) (rest : List Arrival)
    (incoming : watching.incoming = arrival :: rest) :
    Sound (read ++ [arrival]) (watching.act .read) := by
  obtain ⟨after, takes, hperform⟩ :=
    perform_actions calm_watcher (sound.held reading) [arrival]
  have hact : watching.act .read =
      { watching with
        connection := after
        incoming := rest
        exit := Arrival.readingEnd [arrival] } := by
    rw [act, reading, incoming]
    dsimp only
    rw [hperform, Arrival.actions_eq]
  have hread : Arrival.readingEnd read = none := sound.exit.symm.trans reading
  have hdelivered : (watching.act .read).delivered =
      watching.delivered ++ notificationsOf (Arrival.dispatched [arrival]) := by
    rw [hact, Watching.delivered, takes.events, List.filterMap_append, Session.heard_tellings,
      hearings_watcher]
    rfl
  refine ⟨?_, fun hexit => ?_, ?_, ?_⟩
  · rw [hact, Arrival.readingEnd_append, hread, Option.none_or]
  · rw [hact] at hexit ⊢
    have hopen : Arrival.readingEnd [arrival] = none := hexit
    refine takes.dispatcher.trans ?_
    rw [hopen]
    rfl
  · rw [hdelivered, sound.delivered, Arrival.dispatched_append, hread, notificationsOf_append]
    rfl
  · rw [hdelivered, hact]
    exact sound.printed.trans (List.prefix_append _ _)

/-- **One turn** reads on or leaves what was read as it is. -/
theorem Sound.act {read : List Arrival} {watching : Watching} (sound : Sound read watching)
    (turn : Turn) :
    ∃ more, Sound (read ++ more) (watching.act turn) ∧
      watching.incoming = more ++ (watching.act turn).incoming := by
  cases turn with
  | read =>
    cases hexit : watching.exit with
    | some exit =>
      have hact : watching.act .read = watching := by rw [Watching.act, hexit]
      rw [hact]
      exact ⟨[], (List.append_nil read).symm ▸ sound, rfl⟩
    | none =>
      cases hincoming : watching.incoming with
      | nil =>
        have hact : watching.act .read = watching := by rw [Watching.act, hexit, hincoming]
        rw [hact, hincoming]
        exact ⟨[], (List.append_nil read).symm ▸ sound, rfl⟩
      | cons arrival rest =>
        refine ⟨[arrival], sound.read hexit arrival rest hincoming, ?_⟩
        rw [Watching.act, hexit, hincoming]
        rfl
  | call s =>
    refine ⟨[], ?_, rfl⟩
    rw [List.append_nil]
    exact ⟨sound.exit, sound.held, sound.delivered, sound.printed⟩
  | print =>
    refine ⟨[], ?_, rfl⟩
    rw [List.append_nil]
    refine ⟨sound.exit, sound.held, sound.delivered, ?_⟩
    have hall := sound.printed_queued
    show watching.printed ++ watching.queued.head?.toList <+: watching.delivered
    rw [← hall]
    refine (List.prefix_append_right_inj _).mpr ?_
    cases watching.queued with
    | nil => exact List.prefix_rfl
    | cons n rest => exact ⟨rest, rfl⟩

/-- **A run** has read a beginning of the stream. The induction takes one turn off its front. -/
theorem Sound.run {read : List Arrival} {watching : Watching} (sound : Sound read watching)
    (turns : List Turn) :
    ∃ more, Sound (read ++ more) (watching.run turns) ∧
      watching.incoming = more ++ (watching.run turns).incoming := by
  induction turns generalizing read watching with
  | nil => exact ⟨[], (List.append_nil read).symm ▸ sound, rfl⟩
  | cons turn turns ih =>
    obtain ⟨first, hfirst, hincoming⟩ := sound.act turn
    obtain ⟨more, hmore, hrest⟩ := ih hfirst
    refine ⟨first ++ more, ?_, ?_⟩
    · rw [← List.append_assoc]
      exact hmore
    · rw [hincoming, hrest, List.append_assoc]
      rfl

theorem exists_sound (timeout : Duration) (stream : List Arrival) (turns : List Turn) :
    ∃ read, Sound read ((start timeout stream).run turns) ∧
      stream = read ++ ((start timeout stream).run turns).incoming := by
  have hstart : Sound [] (start timeout stream) := ⟨rfl, fun _ => rfl, rfl, List.prefix_rfl⟩
  exact hstart.run turns

/-- What is printed and queued of a stream: a beginning of what it tells, and all of it once the
reading has ended, which it does as the stream does. -/
structure Accounts (stream : List Arrival) (watching : Watching) : Prop where
  begins : watching.printed ++ watching.queued <+: notificationsOf (Arrival.dispatched stream)
  whole : watching.exit ≠ none →
    watching.printed ++ watching.queued = notificationsOf (Arrival.dispatched stream)
  exit : watching.exit ≠ none → watching.exit = Arrival.readingEnd stream

/-- **However the threads take turns**, nothing is lost between them and nothing comes twice. -/
theorem accounts_run (timeout : Duration) (stream : List Arrival) (turns : List Turn) :
    Accounts stream ((start timeout stream).run turns) := by
  obtain ⟨read, sound, hsplit⟩ := exists_sound timeout stream turns
  have hended : ((start timeout stream).run turns).exit ≠ none →
      (Arrival.readingEnd read).isNone = false := by
    rw [sound.exit]
    cases Arrival.readingEnd read <;> simp
  have hall : notificationsOf (Arrival.dispatched stream) =
      notificationsOf (Arrival.dispatched read) ++ notificationsOf
        (if (Arrival.readingEnd read).isNone then
          Arrival.dispatched ((start timeout stream).run turns).incoming else []) := by
    conv_lhs => rw [hsplit]
    rw [Arrival.dispatched_append, notificationsOf_append]
  refine ⟨?_, fun h => ?_, fun h => ?_⟩
  · rw [sound.printed_queued, sound.delivered, hall]
    exact List.prefix_append _ _
  · rw [sound.printed_queued, sound.delivered, hall, hended h]
    exact (List.append_nil _).symm
  · conv_rhs => rw [hsplit]
    have hread : Arrival.readingEnd read ≠ none := sound.exit ▸ h
    rw [Arrival.readingEnd_append, sound.exit,
      Option.or_of_isSome (Option.isSome_iff_ne_none.mpr hread)]

/-! ## Turns without end -/

/-- Neither thread waits forever: reading and printing get their turns again and again. -/
structure Fair (schedule : Nat → Turn) : Prop where
  read : ∀ n, ∃ m ≥ n, schedule m = .read
  print : ∀ n, ∃ m ≥ n, schedule m = .print

example : Fair fun n => if n % 2 = 0 then .read else .print where
  read n := ⟨2 * n, by omega, if_pos (by omega)⟩
  print n := ⟨2 * n + 1, by omega, if_neg (by omega)⟩

/-- The threads after so many turns. -/
def after (watching : Watching) (schedule : Nat → Turn) (n : Nat) : Watching :=
  watching.run ((List.range n).map schedule)

/-- The end of watching a stream: all that it tells is printed, and reading ended as it does. -/
structure Ended (stream : List Arrival) (watching : Watching) : Prop where
  printed : watching.printed = notificationsOf (Arrival.dispatched stream)
  exit : watching.exit = Arrival.readingEnd stream

theorem after_succ (watching : Watching) (schedule : Nat → Turn) (n : Nat) :
    watching.after schedule (n + 1) = (watching.after schedule n).act (schedule n) := by
  simp [after, run, List.range_succ]

/-- What never grows, and shrinks whenever it is due, comes to nothing when it is due again and
again. The induction is on how much is left. -/
theorem exists_eq_zero {left : Nat → Nat} {due : Nat → Prop} (often : ∀ n, ∃ m ≥ n, due m)
    (antitone : Antitone left) (first : Nat)
    (shrinks : ∀ n ≥ first, due n → left n ≠ 0 → left (n + 1) < left n) :
    ∃ n ≥ first, left n = 0 := by
  induction hleft : left first using Nat.strong_induction_on generalizing first with
  | _ k ih =>
    obtain ⟨n, hn, hdue⟩ := often first
    by_cases hzero : left n = 0
    · exact ⟨n, hn, hzero⟩
    · have hless : left (n + 1) < k := hleft ▸ (shrinks n hn hdue hzero).trans_le (antitone hn)
      obtain ⟨m, hm, hdone⟩ := ih _ hless (n + 1)
        (fun i hi => shrinks i (hn.trans (n.le_succ.trans hi))) rfl
      exact ⟨m, hn.trans (n.le_succ.trans hm), hdone⟩

/-- How much can still be read. -/
def unread (watching : Watching) : Nat :=
  if watching.exit.isNone then watching.incoming.length else 0

/-- Reading leaves less to be read, unless nothing is left. -/
theorem unread_read (watching : Watching) :
    watching.act .read = watching ∧ watching.unread = 0 ∨
      (watching.act .read).unread < watching.unread := by
  cases hexit : watching.exit with
  | some exit =>
    refine .inl ⟨by rw [act, hexit], ?_⟩
    rw [unread, hexit]
    rfl
  | none =>
    cases hincoming : watching.incoming with
    | nil =>
      refine .inl ⟨by rw [act, hexit, hincoming], ?_⟩
      rw [unread, hexit, hincoming]
      rfl
    | cons arrival rest =>
      have hnow : watching.unread = rest.length + 1 := by
        rw [unread, hexit, hincoming]
        rfl
      have hthen : (watching.act .read).unread ≤ rest.length := by
        rw [act, hexit, hincoming, unread]
        dsimp only
        split
        · rfl
        · exact Nat.zero_le _
      exact .inr (hnow ▸ Nat.lt_succ_of_le hthen)

theorem unread_act_le (watching : Watching) (turn : Turn) :
    (watching.act turn).unread ≤ watching.unread := by
  cases turn with
  | read =>
    rcases watching.unread_read with ⟨hsame, -⟩ | hless
    · rw [hsame]
    · exact hless.le
  | call | print => exact Nat.le_refl _

theorem antitone_unread (watching : Watching) (schedule : Nat → Turn) :
    Antitone fun n => (watching.after schedule n).unread :=
  antitone_nat_of_succ_le fun n => by
    rw [after_succ]
    exact unread_act_le _ _

theorem length_printed_le_act (watching : Watching) (turn : Turn) :
    watching.printed.length ≤ (watching.act turn).printed.length := by
  cases turn with
  | read =>
    rw [act]
    split <;> exact Nat.le_refl _
  | call => exact Nat.le_refl _
  | print =>
    show _ ≤ (watching.printed ++ _).length
    rw [List.length_append]
    exact Nat.le_add_right _ _

theorem monotone_printed (watching : Watching) (schedule : Nat → Turn) :
    Monotone fun n => (watching.after schedule n).printed.length :=
  monotone_nat_of_le_succ fun n => by
    rw [after_succ]
    exact length_printed_le_act _ _

/-- Printing takes one notification from the queue, unless it is empty. -/
theorem length_printed_print (watching : Watching) :
    (watching.act .print).printed.length =
      watching.printed.length + min 1 watching.queued.length := by
  show (watching.printed ++ _).length = _
  rw [List.length_append]
  cases watching.queued with
  | nil => rfl
  | cons n rest => rw [List.length_cons, Nat.min_eq_left (Nat.succ_le_succ (Nat.zero_le _))]; rfl

/-- When nothing is left to be read, everything that the stream tells was told. -/
theorem Sound.finished {read stream : List Arrival} {watching : Watching}
    (sound : Sound read watching) (split : stream = read ++ watching.incoming)
    (accounts : Accounts stream watching) (finished : watching.unread = 0) :
    watching.exit = Arrival.readingEnd stream ∧
      watching.printed ++ watching.queued = notificationsOf (Arrival.dispatched stream) := by
  cases hexit : watching.exit with
  | some exit =>
    have hended : watching.exit ≠ none := by simp [hexit]
    exact ⟨hexit.symm.trans (accounts.exit hended), accounts.whole hended⟩
  | none =>
    have hincoming : watching.incoming = [] := by
      rw [unread, hexit] at finished
      exact List.length_eq_zero_iff.mp finished
    rw [hincoming, List.append_nil] at split
    rw [split, ← sound.exit, ← sound.delivered]
    exact ⟨hexit.symm, sound.printed_queued⟩

variable {schedule : Nat → Turn}

/-- Fair turns read everything. -/
theorem finished_of_fair (timeout : Duration) (stream : List Arrival) (fair : Fair schedule) :
    ∃ first, ∀ n ≥ first,
      ((start timeout stream).after schedule n).exit = Arrival.readingEnd stream ∧
        ((start timeout stream).after schedule n).printed ++
          ((start timeout stream).after schedule n).queued =
            notificationsOf (Arrival.dispatched stream) := by
  have hantitone := antitone_unread (start timeout stream) schedule
  obtain ⟨first, -, hfirst⟩ := exists_eq_zero fair.read hantitone 0 fun n _ hread hmore => by
    rw [after_succ, hread]
    exact (unread_read _).resolve_left fun h => hmore h.2
  refine ⟨first, fun n hn => ?_⟩
  obtain ⟨read, sound, split⟩ := exists_sound timeout stream ((List.range n).map schedule)
  exact sound.finished split (accounts_run _ _ _) (Nat.le_zero.mp ((hantitone hn).trans_eq hfirst))

/-- **Fair turns come to the end** and stay there: first everything is read, and then all that was
told is printed. -/
theorem ends_of_fair (timeout : Duration) (stream : List Arrival) (fair : Fair schedule) :
    ∃ n, ∀ m ≥ n, Ended stream ((start timeout stream).after schedule m) := by
  obtain ⟨first, hfinished⟩ := finished_of_fair timeout stream fair
  have hantitone : Antitone fun n => (notificationsOf (Arrival.dispatched stream)).length -
      ((start timeout stream).after schedule n).printed.length := fun n m hnm =>
    Nat.sub_le_sub_left (monotone_printed _ schedule hnm) _
  obtain ⟨last, hlast, hnone⟩ := exists_eq_zero fair.print hantitone first
    fun n hn hprint hmore => by
      have hall := congrArg List.length (hfinished n hn).2
      rw [List.length_append] at hall
      rw [after_succ, hprint, length_printed_print]
      omega
  refine ⟨last, fun m hm => ?_⟩
  obtain ⟨hexit, hall⟩ := hfinished m (hlast.trans hm)
  have hprinted := Nat.le_of_sub_eq_zero (Nat.le_zero.mp ((hantitone hm).trans_eq hnone))
  exact ⟨List.IsPrefix.eq_of_length_le ⟨_, hall⟩ hprinted, hexit⟩

end Watching

/-! ## The run of the program -/

/-- What watching leaves behind when these notifications were told and the reading ended so. -/
inductive Watched (notifications : List Notification) (limit : Option OutputLimit) :
    ReaderExit → RunResult → Prop
  /-- The connection was closed. -/
  | closed : Watched notifications limit .closed
    { exitCode := 0
      stdout := notificationLines notifications
      received := [.version, .cavities] }
  /-- The connection failed. -/
  | failed {error : TransportError} : Watched notifications limit (.failed error)
    { exitCode := 1
      stdout := notificationLines notifications
      stderr := (RunError.connection error).message ++ "\n"
      received := [.version, .cavities] }
  /-- Reading broke down. -/
  | brokenDown : Watched notifications limit .brokenDown
    { exitCode := 1
      stdout := notificationLines notifications
      stderr := RunError.readerBroken.message ++ "\n"
      received := [.version, .cavities] }
  /-- There is no room for what is to be printed. -/
  | full {exit : ReaderExit} {room : OutputLimit} {written later : List String} {piece : String}
    (limited : limit = some room)
    (split : notificationPieces notifications = written ++ piece :: later)
    (exceeds : room.bytes < (String.join (written ++ [piece])).utf8ByteSize) :
    Watched notifications limit exit
      { exitCode := 1
        stdout := String.join written
        stderr := (RunError.output room.reason).message ++ "\n"
        received := [.version, .cavities] }

/-- All that arrives at a session that is opened and then waits. -/
def watchedStream (server : Server) (later : List Arrival) : List Arrival :=
  server.stream [.version, .cavities] ++ later

/-- Waiting hears the rest of the stream, up to the end of reading. -/
theorem wait_attends {timeout : Duration} {server : Server} {session : Session}
    (attends : session.Attends [watcher] timeout server)
    (received : session.received = [.version, .cavities]) (later : List Arrival) :
    (session.wait later).2 =
        (Arrival.readingEnd (watchedStream server later)).getD .closed ∧
      (session.wait later).1.heard watcher.name =
        notificationsOf (Arrival.dispatched (watchedStream server later)) ∧
      (session.wait later).1.received = [.version, .cavities] := by
  obtain ⟨-, arrives⟩ := attends.ready.arrive calm_watcher later
  have hexit : session.exit = Arrival.readingEnd (server.stream [.version, .cavities]) := by
    rw [← received]
    exact attends.exit
  refine ⟨?_, ?_, (session.arrive_received later).trans received⟩
  · rw [watchedStream, Arrival.readingEnd_append, ← hexit, ← arrives.exit]
    rfl
  · have htold := attends.told watcher.name
    rw [hearings_watcher, received, Session.heard_eq] at htold
    have hheard : (session.wait later).1.heard watcher.name =
        (session.arrive later).connection.events.filterMap (Session.heardBy watcher.name) := rfl
    rw [hheard, arrives.events, List.filterMap_append, htold, hexit, watchedStream,
      Arrival.dispatched_append, notificationsOf_append]
    split
    · rw [Session.heard_tellings, hearings_watcher]
    · rfl

/-- What is left behind by an open session that watches. -/
theorem watched_watch {timeout : Duration} {server : Server} {session : Session}
    (attends : session.Attends [watcher] timeout server)
    (received : session.received = [.version, .cavities]) (later : List Arrival)
    (limit : Option OutputLimit) :
    Watched (notificationsOf (Arrival.dispatched (watchedStream server later))) limit
      ((Arrival.readingEnd (watchedStream server later)).getD .closed)
      (RunResult.ofServed (session.watch { limit } later).served) := by
  obtain ⟨hexit, hheard, hreceived⟩ := wait_attends attends received later
  rw [Session.watch, ← hexit, ← hheard]
  generalize session.wait later = waited at hreceived
  obtain ⟨after, exit⟩ := waited
  dsimp only at hreceived ⊢
  have hwrites := Output.writes { limit } (notificationPieces (after.heard watcher.name))
  generalize Output.write { limit } (notificationPieces (after.heard watcher.name)) = written
    at hwrites
  cases hwrites with
  | all =>
    have htext : (Output.add { limit } (notificationPieces (after.heard watcher.name))).text =
        notificationLines (after.heard watcher.name) := by
      rw [Output.text_add, join_notificationPieces]
      simp [Output.text]
    cases exit with
    | closed =>
      have hresult := @Watched.closed (after.heard watcher.name) limit
      rw [← htext, ← hreceived] at hresult
      exact hresult
    | failed error =>
      have hresult := @Watched.failed (after.heard watcher.name) limit error
      rw [← htext, ← hreceived] at hresult
      exact hresult
    | brokenDown =>
      have hresult := @Watched.brokenDown (after.heard watcher.name) limit
      rw [← htext, ← hreceived] at hresult
      exact hresult
  | full written piece later limited split exceeds =>
    have htext : ∀ pieces, (Output.add { limit } pieces).text = String.join pieces := by
      intro pieces
      rw [Output.text_add]
      simp [Output.text]
    rw [htext] at exceeds
    have hresult := @Watched.full _ limit exit _ _ _ _ limited split exceeds
    rw [← htext written, ← hreceived] at hresult
    exact hresult

/-- Serving a request to watch, on a session that is opened. -/
theorem watched_serve {world : World} {settings : SessionSettings} {server : Server}
    (reached : world.reach settings = .ok server)
    (opened : (Session.openWith settings [watcher] (CavityCaches.fresh {}).1
      (CavityCaches.fresh {}).2 server).2 = .ok ()) :
    Watched (notificationsOf (Arrival.dispatched (watchedStream server world.later)))
      world.outputLimit ((Arrival.readingEnd (watchedStream server world.later)).getD .closed)
      (RunResult.ofServed (world.serve settings .watch)) := by
  have hopening := Session.opening_openWith calm_watcher settings (CavityCaches.fresh {}).1
    (CavityCaches.fresh {}).2 (by decide) server
  have hserve := World.serve_watch_of_ok reached (Prod.ext rfl opened)
  rw [opened] at hopening
  rw [hserve]
  cases hopening with
  | opened version cavities lists received attends shows =>
    exact watched_watch attends received world.later world.outputLimit

/-- **The two threads come to what the run of the program comes to**, whatever their turns are, as
long as neither waits forever. -/
theorem watched_of_fair {world : World} {arguments : List Argument} {settings : Settings}
    {server : Server} (understood : World.requested arguments = .ok .watch)
    (loaded : world.loaded arguments = .ok settings)
    (reached : world.reach settings.session = .ok server)
    (opened : (Session.openWith settings.session [watcher] (CavityCaches.fresh {}).1
      (CavityCaches.fresh {}).2 server).2 = .ok ()) {schedule : Nat → Watching.Turn}
    (fair : Watching.Fair schedule) :
    ∃ n, ∀ m ≥ n,
      let watching := (Watching.start settings.responseTimeout
        (watchedStream server world.later)).after schedule m
      Watched watching.printed world.outputLimit (watching.exit.getD .closed)
        (world.run arguments) := by
  obtain ⟨n, hn⟩ :=
    Watching.ends_of_fair settings.responseTimeout (watchedStream server world.later) fair
  refine ⟨n, fun m hm => ?_⟩
  dsimp only
  rw [(hn m hm).printed, (hn m hm).exit, World.run_of_request understood loaded]
  exact watched_serve reached opened

/-- **Watching loses and repeats nothing.** Of whatever a server sends, from the first byte of a
connection on which a session can be opened, watching prints what the dispatcher tells of the lines
before the end of reading, one notification on a line, in order; it succeeds exactly when the
connection was closed, and fails with the reason otherwise. However the thread that reads and the
thread that opens the session and prints take turns, what is printed and what is queued make up what
was told so far, and all of it at the end of reading. -/
theorem watch_prints_all (world : World) (arguments : List Argument) (settings : Settings)
    (server : Server) (understood : World.requested arguments = .ok .watch)
    (loaded : world.loaded arguments = .ok settings)
    (reached : world.reach settings.session = .ok server)
    (opened : (Session.openWith settings.session [watcher] (CavityCaches.fresh {}).1
      (CavityCaches.fresh {}).2 server).2 = .ok ()) :
    Watched (notificationsOf (Arrival.dispatched (watchedStream server world.later)))
      world.outputLimit ((Arrival.readingEnd (watchedStream server world.later)).getD .closed)
      (world.run arguments) ∧
    (world.outputLimit = none →
      ((world.run arguments).exitCode = 0 ↔
        (Arrival.readingEnd (watchedStream server world.later)).getD .closed = .closed)) ∧
    ∀ turns, Watching.Accounts (watchedStream server world.later)
      ((Watching.start settings.responseTimeout (watchedStream server world.later)).run turns) := by
  have hwatched := watched_serve reached opened
  rw [World.run_of_request understood loaded]
  refine ⟨hwatched, fun hlimit => ?_, Watching.accounts_run _ _⟩
  rw [hlimit] at hwatched
  generalize RunResult.ofServed (world.serve settings.session .watch) = result at hwatched
  generalize (Arrival.readingEnd (watchedStream server world.later)).getD .closed = exit at hwatched
  cases hwatched with
  | closed => exact ⟨fun _ => rfl, fun _ => rfl⟩
  | failed | brokenDown => exact ⟨nofun, nofun⟩
  | full limited => cases limited

/-- A server that notifies before, between and behind its responses; then a line comes that is no
document, and more behind it. -/
def talkative : Server where
  greeting := [.line "\x7b\"notification\":\"paused\"\x7d"]
  reply
    | [.version] =>
      [.line "\x7b\"notification\":\"loop\"\x7d",
       .line "\x7b\"response\":\"ok\",\"version\":\"1\"\x7d", .line "\x7b\x7d"]
    | _ =>
      [.line "\x7b\"response\":\"ok\",\"cavities\":[]\x7d", .line "\x7b\"response\":\"ok\"\x7d",
       .line "\x7b\"notification\":\"applause\"\x7d"]

/-- What it sends once the session is open. -/
def lastWords : List Arrival :=
  [.line "\x7b\"notification\":\"paused\"\x7d", .line "[]",
   .line "\x7b\"notification\":\"paused\"\x7d"]

theorem notificationsOf_talkative :
    notificationsOf (Arrival.dispatched (watchedStream talkative lastWords)) =
      [.paused none, .loop none, .errorStatus unrecognisedMessage, .paused none] := by
  have hpaused : Document.ofLine "\x7b\"notification\":\"paused\"\x7d" =
      .ok [("notification", .string "paused")] := by cbv
  have hpausedRead : Notification.ofDocument [("notification", .string "paused")] =
      .ok (.paused none) := by decide
  have hloop : Document.ofLine "\x7b\"notification\":\"loop\"\x7d" =
      .ok [("notification", .string "loop")] := by cbv
  have hloopRead : Notification.ofDocument [("notification", .string "loop")] =
      .ok (.loop none) := by decide
  have hversion : Document.ofLine "\x7b\"response\":\"ok\",\"version\":\"1\"\x7d" =
      .ok [("response", .string "ok"), ("version", .string "1")] := by cbv
  have hempty : Document.ofLine "\x7b\x7d" = .ok [] := by cbv
  have hcavities : Document.ofLine "\x7b\"response\":\"ok\",\"cavities\":[]\x7d" =
      .ok [("cavities", .array []), ("response", .string "ok")] := by cbv
  have hok : Document.ofLine "\x7b\"response\":\"ok\"\x7d" = .ok [("response", .string "ok")] := by
    cbv
  have happlause : Document.ofLine "\x7b\"notification\":\"applause\"\x7d" =
      .ok [("notification", .string "applause")] := by cbv
  have happlauseRead : Notification.ofDocument [("notification", .string "applause")] =
      .error (.unknownType "applause") := by decide
  have hlist : Document.ofLine "[]" = .error (.notAnObject "array") := by cbv
  simp [watchedStream, Server.stream, Server.said, talkative, lastWords, Arrival.dispatched,
    Arrival.ending, Arrival.text?, notificationsOf, hpaused, hpausedRead, hloop, hloopRead,
    hversion, hempty, hcavities, hok, happlause, happlauseRead, hlist, Verdict.ofLine,
    Verdict.ofDocument, Members.contains, Members.get?, Verdict.told]

/-- A run that watches it. -/
def watchingWorld : World where
  reach := fun _ => .ok talkative
  later := lastWords

theorem watch_prints_all_talkative :
    World.requested (typed ["watch"]) = .ok .watch ∧
      watchingWorld.loaded (typed ["watch"]) = .ok hereSettings ∧
      watchingWorld.reach hereSettings.session = .ok talkative ∧
      (Session.openWith hereSettings.session [watcher] (CavityCaches.fresh {}).1
        (CavityCaches.fresh {}).2 talkative).2 = .ok () ∧
      Watched [.paused none, .loop none, .errorStatus unrecognisedMessage, .paused none] none
        (.failed (.undecodable (.notAnObject "array"))) (watchingWorld.run (typed ["watch"])) := by
  have understood : World.requested (typed ["watch"]) = .ok .watch := by
    decide +kernel
  have loaded : watchingWorld.loaded (typed ["watch"]) = .ok hereSettings :=
    loaded_typed _ _ (by decide +kernel)
  have opened : (Session.openWith hereSettings.session [watcher] (CavityCaches.fresh {}).1
      (CavityCaches.fresh {}).2 talkative).2 = .ok () := by decide +kernel
  have hwatched := (watch_prints_all watchingWorld (typed ["watch"]) hereSettings talkative
    understood loaded rfl opened).1
  have hending : (Arrival.readingEnd (watchedStream talkative lastWords)).getD .closed =
      .failed (.undecodable (.notAnObject "array")) := by decide +kernel
  have hlater : watchingWorld.later = lastWords := rfl
  rw [hlater, notificationsOf_talkative, hending] at hwatched
  exact ⟨understood, loaded, rfl, opened, hwatched⟩

end CavityConsole

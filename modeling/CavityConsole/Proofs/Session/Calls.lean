import CavityConsole.Proofs.Session.Arrivals
import CavityConsole.Session.Basic

/-!
# What a command on a session comes to

Between two commands the console of a session is idle: its window is closed and its slot is empty
(`Session.Ready`). Opening, arrivals and commands keep it so, and a command on such a session comes
to one of three things (`Session.Called`): its line cannot be written, it is interrupted because the
reading is over, or the server receives it and the first response of its reply answers it.

**The law** (`Ready.call`): nothing else becomes of a command. What the server sent before, whatever
it was, plays no part but by the end of reading.
-/

namespace CavityConsole

namespace Console

/-- A console between two calls whose slot is empty. -/
def idle (timeout : Duration) (connected : Bool) : Console where
  slot := { connected }
  timeout

/-- A console whose line is being written, with what its slot holds. -/
def writing (timeout : Duration) (connected : Bool) (command : Command)
    (pending : Option Document) : Console where
  slot := { awaiting := true, pending, connected }
  timeout
  call := some ⟨command, .opened⟩

/-- The loss of the connection, if it is lost. -/
def loss (connected : Bool) : List Step := if connected then [] else [.disconnect]

/-- Without a command outstanding responses come in vain. -/
theorem idle_after (timeout : Duration) (connected : Bool) (responses : List Document) :
    (idle timeout true).after (responses.map .deliver ++ loss connected) =
      idle timeout connected := by
  induction responses with
  | nil => cases connected <;> rfl
  | cons response responses ih => exact ih

theorem writing_after_loss (timeout : Duration) (connected : Bool) (command : Command)
    (pending : Option Document) :
    (writing timeout true command pending).after (loss connected) =
      writing timeout connected command pending := by
  cases connected <;> rfl

/-- An open window keeps the first response. -/
theorem writing_after (timeout : Duration) (connected : Bool) (command : Command)
    (pending : Option Document) (responses : List Document) :
    (writing timeout true command pending).after (responses.map .deliver ++ loss connected) =
      writing timeout connected command (pending.or responses.head?) := by
  induction responses generalizing pending with
  | nil =>
    rw [List.map_nil, List.nil_append, List.head?_nil, Option.or_none]
    exact writing_after_loss timeout connected command pending
  | cons response responses ih =>
    have hoffer : ((writing timeout true command pending).step (.deliver response)).1 =
        writing timeout true command (pending.or (some response)) := by
      cases pending <;> rfl
    rw [List.map_cons, List.cons_append, after_cons, hoffer, ih, Option.or_assoc, List.head?_cons,
      Option.some_or]

end Console

namespace Connection

open Console

variable {connection : Connection} {timeout : Duration} {connected : Bool} {command : Command}

/-- A connection on which a command was begun. -/
def begun (connection : Connection) (command : Command) : Connection :=
  ((connection.step (.drain command)).1.step .begin).1.observe (.sent command.line)

theorem begun_of_idle (idle : connection.console = .idle timeout connected) (command : Command) :
    (connection.begun command).console = writing timeout connected command none ∧
      (connection.begun command).dispatcher = connection.dispatcher ∧
      (connection.begun command).events = connection.events ++ [.sent command.line] := by
  refine ⟨?_, rfl, rfl⟩
  show ((connection.console.step (.drain command)).1.step .begin).1 = _
  rw [idle]
  rfl

/-- The rest of a call once the writing of its line is over. -/
def concluded (connection : Connection) (result : WriteResult) :
    Connection × Option (Except CommandError Document) :=
  let connection := (stepsAfter result).foldl (fun connection s => (connection.step s).1) connection
  let (connection, effect) := connection.step .release
  (connection, effect.finished.bind (·.2))

theorem call_eq (connection : Connection) (command : Command) (actions : List Action) :
    connection.call command actions =
      ((connection.begun command).perform actions).1.concluded
        ((connection.begun command).perform actions).2 := rfl

/-- The end of a call leaves an idle console and everything else as it was. -/
structure Ends (connection : Connection) (result : WriteResult) (timeout : Duration)
    (connected : Bool) (outcome : Except CommandError Document) : Prop where
  console : (connection.concluded result).1.console = .idle timeout connected
  dispatcher : (connection.concluded result).1.dispatcher = connection.dispatcher
  events : (connection.concluded result).1.events = connection.events
  outcome : (connection.concluded result).2 = some outcome

theorem ends_written (responses : List Document)
    (h : connection.console = writing timeout connected command responses.head?) :
    Ends connection .written timeout connected (answer command timeout connected responses) := by
  obtain ⟨console, dispatcher, events, log⟩ := connection
  cases h
  cases responses with
  | nil => cases connected <;> exact ⟨rfl, rfl, rfl, rfl⟩
  | cons response responses => exact ⟨rfl, rfl, rfl, rfl⟩

theorem ends_failed (reason : String)
    (h : connection.console = writing timeout connected command none) :
    Ends connection (.failed reason) timeout connected (.error (.send command.name reason)) := by
  obtain ⟨console, dispatcher, events, log⟩ := connection
  cases h
  exact ⟨rfl, rfl, rfl, rfl⟩

end Connection

/-- The lines of a reply that are dispatched. -/
def Server.lines (server : Server) (commands : List Command) : List String :=
  Arrival.dispatched (server.reply commands)

/-- A cache that is there shows what it was replaced by. -/
theorem CavityCaches.snapshot_replace {caches : CavityCaches} {cache : CavityHandle}
    (there : cache.index < caches.lists.length) (cavities : CavityList) :
    (caches.replace cache cavities).snapshot cache = cavities := by
  rw [snapshot, replace, List.getElem?_set_self there]
  rfl

namespace Session

open Connection Console

variable {listeners : List Recorder} {timeout : Duration} {session next : Session}
  {server : Server} {command : Command}

/-- Between two commands: the console is idle, and the listeners are held up to the end of
reading. -/
structure Ready (listeners : List Recorder) (timeout : Duration) (session : Session) : Prop where
  console : session.connection.console = .idle timeout session.exit.isNone
  dispatcher : session.connection.dispatcher =
    if session.exit.isNone then some (feeding listeners) else none

theorem ready_start (settings : SessionSettings) (listeners : List Recorder)
    (caches : CavityCaches) (cache : CavityHandle) :
    Ready listeners settings.responseTimeout (start settings listeners caches cache) := ⟨rfl, rfl⟩

theorem Ready.held (ready : Ready listeners timeout session) (reading : session.exit = none) :
    session.connection.dispatcher = some (feeding listeners) := by
  rw [ready.dispatcher, reading]
  rfl

/-! ## Arrivals between commands -/

theorem loss_of_exit (exit : Option ReaderExit) :
    (exit.toList.map fun _ => Step.disconnect) = loss exit.isNone := by
  cases exit <;> rfl

/-- What arrives while no command is outstanding, and whether the reading goes on. -/
structure Arrives (listeners : List Recorder) (session : Session) (arrivals : List Arrival)
    (next : Session) : Prop where
  exit : next.exit = session.exit.or (Arrival.readingEnd arrivals)
  events : next.connection.events = session.connection.events ++
    if session.exit.isNone then
      tellings listeners (notificationsOf (Arrival.dispatched arrivals)) else []

theorem Ready.arrive (ready : Ready listeners timeout session) (calm : Calm listeners)
    (arrivals : List Arrival) :
    Ready listeners timeout (session.arrive arrivals) ∧
      Arrives listeners session arrivals (session.arrive arrivals) := by
  cases hexit : session.exit with
  | some exit =>
    have harrive : session.arrive arrivals = session := by rw [Session.arrive, hexit]
    rw [harrive]
    refine ⟨ready, ?_, ?_⟩
    · rw [hexit, Option.some_or]
    · rw [hexit]
      exact (List.append_nil _).symm
  | none =>
    obtain ⟨after, takes, hperform⟩ := perform_actions calm (ready.held hexit) arrivals
    have harrive : session.arrive arrivals =
        { session with connection := after, exit := Arrival.readingEnd arrivals } := by
      rw [Session.arrive, hexit]
      dsimp only
      rw [hperform, Arrival.actions_eq]
    rw [harrive]
    refine ⟨⟨?_, takes.dispatcher⟩, ?_, ?_⟩
    · rw [takes.console, ready.console, hexit, loss_of_exit]
      exact idle_after _ _ _
    · rw [hexit, Option.none_or]
    · rw [hexit]
      exact takes.events

/-- Nothing that arrives touches a cache. -/
theorem arrive_caches (session : Session) (arrivals : List Arrival) :
    (session.arrive arrivals).caches = session.caches ∧
      (session.arrive arrivals).cache = session.cache := by
  unfold arrive
  split <;> exact ⟨rfl, rfl⟩

theorem arrive_received (session : Session) (arrivals : List Arrival) :
    (session.arrive arrivals).received = session.received := by
  unfold arrive
  split <;> rfl

/-! ## Commands -/

/-- What becomes of a command. -/
inductive Called (listeners : List Recorder) (timeout : Duration) (session : Session)
    (server : Server) (command : Command) (next : Session) : Except CommandError Document → Prop
  /-- Its line cannot be written. -/
  | unsent {reason : String}
    (refusal : server.refusal (session.received ++ [command]) = some reason)
    (exit : next.exit = session.exit) (received : next.received = session.received)
    (events : next.connection.events = session.connection.events ++ [.sent command.line]) :
    Called listeners timeout session server command next (.error (.send command.name reason))
  /-- The reading is over. -/
  | interrupted {ending : ReaderExit}
    (taken : server.refusal (session.received ++ [command]) = none)
    (ended : session.exit = some ending) (exit : next.exit = session.exit)
    (received : next.received = session.received)
    (events : next.connection.events = session.connection.events ++ [.sent command.line]) :
    Called listeners timeout session server command next (.error (.interrupted command.name))
  /-- The server receives it. -/
  | sent (taken : server.refusal (session.received ++ [command]) = none)
    (reading : session.exit = none)
    (exit : next.exit = Arrival.readingEnd (server.reply (session.received ++ [command])))
    (received : next.received = session.received ++ [command])
    (events : next.connection.events = session.connection.events ++ .sent command.line ::
      tellings listeners (notificationsOf (server.lines (session.received ++ [command])))) :
    Called listeners timeout session server command next
      (answer command timeout next.exit.isNone
        (responsesOn (server.lines (session.received ++ [command]))))

/-- A command comes to an outcome and leaves the session ready. -/
def Comes (listeners : List Recorder) (timeout : Duration) (session : Session) (server : Server)
    (command : Command) : Prop :=
  Ready listeners timeout (session.call server command).1 ∧
    Called listeners timeout session server command (session.call server command).1
      (session.call server command).2

theorem Ready.call_unsent (ready : Ready listeners timeout session) {reason : String}
    (refusal : server.refusal (session.received ++ [command]) = some reason) :
    Comes listeners timeout session server command := by
  obtain ⟨hconsole, hdispatcher, hevents⟩ := begun_of_idle ready.console command
  have hcall : session.call server command =
      ({ session with connection := (session.connection.call command [.fail reason]).1 },
        (session.connection.call command [.fail reason]).2.getD
          (.error (.interrupted command.name))) := by
    rw [Session.call, refusal]
    cases session.exit <;> rfl
  have ends := ends_failed reason hconsole
  rw [Comes, hcall, call_eq, Connection.perform]
  refine ⟨⟨ends.console, ?_⟩, ?_⟩
  · exact ends.dispatcher.trans (hdispatcher.trans ready.dispatcher)
  · rw [ends.outcome]
    exact .unsent refusal rfl rfl (ends.events.trans hevents)

theorem Ready.call_interrupted (ready : Ready listeners timeout session)
    (taken : server.refusal (session.received ++ [command]) = none) {ending : ReaderExit}
    (ended : session.exit = some ending) : Comes listeners timeout session server command := by
  obtain ⟨hconsole, hdispatcher, hevents⟩ := begun_of_idle ready.console command
  have hcall : session.call server command =
      ({ session with connection := (session.connection.call command []).1 },
        (session.connection.call command []).2.getD (.error (.interrupted command.name))) := by
    rw [Session.call, taken, ended]
  have ends := ends_written [] hconsole
  rw [Comes, hcall, call_eq, Connection.perform]
  refine ⟨⟨ends.console, ?_⟩, ?_⟩
  · exact ends.dispatcher.trans (hdispatcher.trans ready.dispatcher)
  · rw [ends.outcome, ended]
    exact .interrupted taken ended ended.symm rfl (ends.events.trans hevents)

theorem Ready.call_sent (ready : Ready listeners timeout session) (calm : Calm listeners)
    (taken : server.refusal (session.received ++ [command]) = none)
    (reading : session.exit = none) : Comes listeners timeout session server command := by
  obtain ⟨hconsole, hdispatcher, hevents⟩ := begun_of_idle ready.console command
  have hheld := hdispatcher.trans (ready.held reading)
  obtain ⟨after, takes, hperform⟩ :=
    perform_actions calm hheld (server.reply (session.received ++ [command]))
  have hcall : session.call server command =
      ({ session with
          connection := (after.concluded .written).1
          exit := Arrival.readingEnd (server.reply (session.received ++ [command]))
          received := session.received ++ [command] },
        (after.concluded .written).2.getD (.error (.interrupted command.name))) := by
    rw [Session.call, taken, reading]
    dsimp only
    rw [call_eq, hperform, Arrival.actions_eq]
  have hwriting := takes.console
  rw [hconsole, reading, loss_of_exit, Option.isNone_none, writing_after, Option.none_or]
    at hwriting
  have ends := ends_written _ hwriting
  rw [Comes, hcall]
  refine ⟨⟨ends.console, ends.dispatcher.trans takes.dispatcher⟩, ?_⟩
  rw [ends.outcome]
  refine .sent taken reading rfl rfl ?_
  rw [ends.events, takes.events, hevents, List.append_assoc, List.singleton_append]
  rfl

/-- **A command on a ready session** comes to one of three things and leaves it ready. -/
theorem Ready.call (ready : Ready listeners timeout session) (calm : Calm listeners)
    (server : Server) (command : Command) :
    Ready listeners timeout (session.call server command).1 ∧
      Called listeners timeout session server command (session.call server command).1
        (session.call server command).2 := by
  cases hrefusal : server.refusal (session.received ++ [command]) with
  | some reason => exact ready.call_unsent hrefusal
  | none =>
    cases hexit : session.exit with
    | some ending => exact ready.call_interrupted hrefusal hexit
    | none => exact ready.call_sent calm hrefusal hexit

/-! ## The commands of an opening -/

theorem refreshCavities_of_error {error : CommandError}
    (h : (session.askCavities server).2 = .error error) :
    session.refreshCavities server = ((session.askCavities server).1, .error error) := by
  unfold refreshCavities
  split
  next after other hask =>
    rw [hask] at h ⊢
    rw [Except.error.inj h]
  next after cavities hask =>
    rw [hask] at h
    cases h

theorem refreshCavities_of_ok {cavities : CavityList}
    (h : (session.askCavities server).2 = .ok cavities) :
    session.refreshCavities server =
      ({ (session.askCavities server).1 with
          caches := session.caches.replace session.cache cavities }, .ok ()) := by
  have hcaches : (session.askCavities server).1.caches = session.caches := rfl
  have hcache : (session.askCavities server).1.cache = session.cache := rfl
  unfold refreshCavities
  rw [← hcaches, ← hcache]
  split
  next after other hask =>
    rw [hask] at h
    cases h
  next after read hask =>
    rw [hask] at h ⊢
    rw [Except.ok.inj h]

theorem handshake_of_error {error : CommandError}
    (h : (session.askVersion server).2 = .error error) :
    session.handshake server = ((session.askVersion server).1, .error error) := by
  unfold handshake
  split
  next after other hask =>
    rw [hask] at h ⊢
    rw [Except.error.inj h]
  next after version hask =>
    rw [hask] at h
    cases h

theorem handshake_of_ok {version : String} (h : (session.askVersion server).2 = .ok version) :
    session.handshake server =
      { (session.askVersion server).1 with version }.refreshCavities server := by
  unfold handshake
  split
  next after other hask =>
    rw [hask] at h
    cases h
  next after read hask =>
    rw [hask] at h ⊢
    rw [Except.ok.inj h]

/-- A session that was just started and has heard the greeting. -/
def greeted (settings : SessionSettings) (listeners : List Recorder) (caches : CavityCaches)
    (cache : CavityHandle) (server : Server) : Session :=
  (start settings listeners caches cache).arrive server.greeting

theorem greeted_caches (settings : SessionSettings) (listeners : List Recorder)
    (caches : CavityCaches) (cache : CavityHandle) (server : Server) :
    (greeted settings listeners caches cache server).caches = caches ∧
      (greeted settings listeners caches cache server).cache = cache :=
  arrive_caches (start settings listeners caches cache) server.greeting

theorem openWith_eq (settings : SessionSettings) (listeners : List Recorder)
    (caches : CavityCaches) (cache : CavityHandle) (server : Server) :
    openWith settings listeners caches cache server =
      (((greeted settings listeners caches cache server).handshake server).1,
        ((greeted settings listeners caches cache server).handshake server).2.mapError
          .handshake) := rfl

end Session

end CavityConsole

import CavityConsole.Proofs.Console.Payload
import CavityConsole.Proofs.Session.Calls
import CavityConsole.Proofs.Session.Pipeline
import Mathlib.Data.List.Infix

/-!
# What a session and a server exchange

Of everything that a server sends, a session sees one stream (`Server.stream`): the greeting, and
behind it the reply on each command that the server received. A session attends to it
(`Session.Attends`) when its reading ended where the stream ends it and its listeners were told of
every line before.

A command is completed by a server that receives it and answers it with an accepting response that
holds what the command asks for (`Server.Completes`); otherwise it fails, and there is one reason
why (`Server.Fails`).

**The law** (`Attends.ask`): on a session that attends to a server, a command either is completed
and gives what the response holds, or it fails with the error for the reason why. The session goes
on attending.
-/

namespace CavityConsole

open Connection Console

/-! ## The server's side -/

namespace Server

/-- What a server says when it has received these commands. -/
def said (server : Server) : List Command → List Arrival
  | [] => server.greeting
  | commands => server.reply commands

/-- All that a server says up to the reply on the last of these commands. -/
def stream (server : Server) (received : List Command) : List Arrival :=
  received.inits.flatMap server.said

theorem stream_nil (server : Server) : server.stream [] = server.greeting :=
  List.append_nil _

theorem stream_concat (server : Server) (received : List Command) (command : Command) :
    server.stream (received ++ [command]) =
      server.stream received ++ server.reply (received ++ [command]) := by
  have hsaid : server.said (received ++ [command]) = server.reply (received ++ [command]) := by
    cases received <;> rfl
  rw [stream, List.inits_append, List.flatMap_append, ← stream, ← hsaid]
  simp

/-- How the reading of all this ends, if it does. -/
def ending (server : Server) (received : List Command) : Option ReaderExit :=
  Arrival.readingEnd (server.stream received)

/-- The responses that arrive while the last of these commands is outstanding. -/
def responses (server : Server) (commands : List Command) : List Document :=
  responsesOn (server.lines commands)

end Server

/-- What a response to a command has to hold. -/
def Command.Payload : Command → Document → Prop
  | .version, document => ∃ version, Members.get? document "version" = some (.string version)
  | .cavities, document => ∃ names, Lists document names
  | _, _ => True

/-- What is wrong with a response that does not hold it. -/
inductive Command.Misanswers : Command → Document → CommandError → Prop
  | noVersion {document : Document} (lacks : Lacks document "version") :
    Misanswers .version document (.missingField "version" "version")
  | badVersion {document : Document} (present : ¬ Lacks document "version")
    (other : ∀ version, Members.get? document "version" ≠ some (.string version)) :
    Misanswers .version document (.invalidField "version" "version")
  | noCavities {document : Document} (lacks : Lacks document "cavities") :
    Misanswers .cavities document (.missingField "cavities" "cavities")
  | badCavities {document : Document} (mislists : Mislists document) :
    Misanswers .cavities document (.invalidField "cavities" "cavities")

theorem versionOf_of_error {document : Document} {error : CommandError}
    (h : versionOf document = .error error) : Command.Misanswers .version document error := by
  have hother : ∀ version, Members.get? document "version" ≠ some (.string version) := by
    intro version hversion
    rw [versionOf_eq_ok_iff.mpr hversion] at h
    cases h
  rcases lacks_or document "version" with hlacks | ⟨value, hvalue, hnull⟩
  · rw [versionOf, requiredField_of_lacks hlacks] at h
    cases h
    exact .noVersion hlacks
  · have hpresent : ¬ Lacks document "version" := not_lacks_of_get? hvalue hnull
    rw [versionOf, requiredField_of_some _ hvalue hnull] at h
    cases value with
    | string text => exact absurd hvalue (hother text)
    | null | boolean | number | array | object =>
      cases h
      exact .badVersion hpresent hother

theorem cavitiesOf_of_error {document : Document} {error : CommandError}
    (h : cavitiesOf document = .error error) : Command.Misanswers .cavities document error := by
  rcases cavitiesOf_cases document with ⟨names, hlists, hread⟩ | ⟨hlacks, hread⟩ | ⟨hmis, hread⟩
  · cases h.symm.trans hread
  · cases h.symm.trans hread
    exact .noCavities hlacks
  · cases h.symm.trans hread
    exact .badCavities hmis

namespace Server

/-- A server that has received these commands receives another one, and this response is the first
one behind it. -/
structure Answers (server : Server) (received : List Command) (command : Command)
    (document : Document) : Prop where
  /-- The command can be written. -/
  taken : server.refusal (received ++ [command]) = none
  /-- Until then the reading has not ended. -/
  reading : server.ending received = none
  first : (server.responses (received ++ [command])).head? = some document

/-- The response accepts the command and holds what it asks for. -/
structure Completes (server : Server) (received : List Command) (command : Command)
    (document : Document) : Prop extends Answers server received command document where
  accepting : Accepting document
  payload : command.Payload document

/-- Why a command fails on a server that has received these commands, and which ones it has received
then. -/
inductive Fails (server : Server) (timeout : Duration) (received : List Command)
    (command : Command) : List Command → CommandError → Prop
  /-- It cannot be written. -/
  | unsent {reason : String} (refusal : server.refusal (received ++ [command]) = some reason) :
    Fails server timeout received command received (.send command.name reason)
  /-- The reading has ended before. -/
  | ended (taken : server.refusal (received ++ [command]) = none) {exit : ReaderExit}
    (reading : server.ending received = some exit) :
    Fails server timeout received command received (.interrupted command.name)
  /-- The reading ends without a response. -/
  | cut (taken : server.refusal (received ++ [command]) = none)
    (reading : server.ending received = none)
    (silent : server.responses (received ++ [command]) = []) {exit : ReaderExit}
    (ended : server.ending (received ++ [command]) = some exit) :
    Fails server timeout received command (received ++ [command]) (.interrupted command.name)
  /-- There is no response. -/
  | late (taken : server.refusal (received ++ [command]) = none)
    (silent : server.responses (received ++ [command]) = [])
    (reading : server.ending (received ++ [command]) = none) :
    Fails server timeout received command (received ++ [command]) (.timeout command.name timeout)
  /-- The first response does not accept it. -/
  | rejected {document : Document} (answers : server.Answers received command document)
    (refuses : ¬ Accepting document) :
    Fails server timeout received command (received ++ [command])
      (.rejected command.name ((Members.get? document "message").bind Json.string?))
  /-- The first response accepts it and does not hold what it asks for. -/
  | misanswered {document : Document} {error : CommandError}
    (answers : server.Answers received command document) (accepting : Accepting document)
    (wrong : command.Misanswers document error) :
    Fails server timeout received command (received ++ [command]) error

end Server

/-! ## The session's side -/

namespace Session

variable {listeners : List Recorder} {timeout : Duration} {session : Session} {server : Server}

/-- What a listener of this name hears of an event. -/
def heardBy (name : String) : ConnectionEvent → Option Notification
  | .heard listener notification => if listener = name then some notification else none
  | _ => none

theorem heardBy_sent (name line : String) : heardBy name (.sent line) = none := rfl

theorem heard_eq (session : Session) (name : String) :
    session.heard name = session.connection.events.filterMap (heardBy name) := rfl

/-- What listeners of a name hear of notifications: each one, once for each of them. -/
def hearings (listeners : List Recorder) (name : String) (notifications : List Notification) :
    List Notification :=
  notifications.flatMap fun n => (listeners.filter (·.name = name)).map fun _ => n

theorem hearings_append (name : String) (notifications later : List Notification) :
    hearings listeners name (notifications ++ later) =
      hearings listeners name notifications ++ hearings listeners name later :=
  List.flatMap_append

theorem heard_tellings (listeners : List Recorder) (name : String)
    (notifications : List Notification) :
    (tellings listeners notifications).filterMap (heardBy name) =
      hearings listeners name notifications := by
  have hone : ∀ n, (listeners.map fun listener => ConnectionEvent.heard listener.name n).filterMap
      (heardBy name) = (listeners.filter (·.name = name)).map fun _ => n := by
    intro n
    induction listeners with
    | nil => rfl
    | cons listener listeners ih =>
      rw [List.map_cons, List.filterMap_cons, ih, List.filter_cons, heardBy]
      by_cases h : listener.name = name
      · simp [h]
      · simp [h]
  rw [tellings, List.filterMap_flatMap, hearings]
  exact List.flatMap_congr fun n _ => hone n

/-- A session that attends to a server: it is ready, its reading ended where that of the stream
ends, and its listeners were told of all that came before. -/
structure Attends (listeners : List Recorder) (timeout : Duration) (server : Server)
    (session : Session) : Prop where
  ready : Ready listeners timeout session
  exit : session.exit = server.ending session.received
  told : ∀ name, session.heard name = hearings listeners name
    (notificationsOf (Arrival.dispatched (server.stream session.received)))

/-- A session that has just heard the greeting. -/
theorem attends_start (calm : Calm listeners) (settings : SessionSettings) (caches : CavityCaches)
    (cache : CavityHandle) (server : Server) :
    Attends listeners settings.responseTimeout server
      ((start settings listeners caches cache).arrive server.greeting) := by
  obtain ⟨ready, arrives⟩ :=
    (ready_start settings listeners caches cache).arrive calm server.greeting
  have hreceived : ((start settings listeners caches cache).arrive server.greeting).received = [] :=
    rfl
  refine ⟨ready, ?_, fun name => ?_⟩
  · rw [arrives.exit, hreceived, Server.ending, Server.stream_nil]
    rfl
  · rw [heard_eq, arrives.events, hreceived, Server.stream_nil]
    exact heard_tellings listeners name _

/-- A command whose line was not received changes nothing of what a session attends to. -/
theorem Attends.unreceived {next : Session} {command : Command}
    (attends : Attends listeners timeout server session) (ready : Ready listeners timeout next)
    (exit : next.exit = session.exit) (received : next.received = session.received)
    (events : next.connection.events = session.connection.events ++ [.sent command.line]) :
    Attends listeners timeout server next := by
  refine ⟨ready, ?_, fun name => ?_⟩
  · rw [exit, received, attends.exit]
  · rw [heard_eq, events, List.filterMap_append, received, ← attends.told name]
    exact List.append_nil _

/-- A command whose line was received adds the reply to the stream. -/
theorem Attends.received {next : Session} {command : Command}
    (attends : Attends listeners timeout server session) (ready : Ready listeners timeout next)
    (reading : session.exit = none)
    (exit : next.exit = Arrival.readingEnd (server.reply (session.received ++ [command])))
    (received : next.received = session.received ++ [command])
    (events : next.connection.events = session.connection.events ++ .sent command.line ::
      tellings listeners (notificationsOf (server.lines (session.received ++ [command])))) :
    Attends listeners timeout server next := by
  have hending : Arrival.readingEnd (server.stream session.received) = none :=
    attends.exit.symm.trans reading
  refine ⟨ready, ?_, fun name => ?_⟩
  · rw [exit, received, Server.ending, Server.stream_concat, Arrival.readingEnd_append, hending,
      Option.none_or]
  · rw [heard_eq, events, List.filterMap_append, List.filterMap_cons, heardBy_sent,
      heard_tellings, ← heard_eq, attends.told name, received, Server.stream_concat,
      Arrival.dispatched_append, hending, Option.isNone_none, if_pos rfl,
      notificationsOf_append, hearings_append]
    rfl

/-! ## Commands -/

/-- Issues a command and reads something from the response that accepts it. -/
def ask {α : Type} (session : Session) (server : Server) (command : Command)
    (read : Document → Except CommandError α) : Session × Except CommandError α :=
  ((session.call server command).1, (session.call server command).2.bind read)

theorem askVersion_eq (session : Session) (server : Server) :
    session.askVersion server = session.ask server .version versionOf := rfl

theorem askCavities_eq (session : Session) (server : Server) :
    session.askCavities server = session.ask server .cavities cavitiesOf := rfl

theorem acknowledge_eq (session : Session) (server : Server) (command : Command) :
    session.acknowledge server command = session.ask server command fun _ => .ok () := by
  rw [acknowledge, ask]
  obtain ⟨next, outcome⟩ := session.call server command
  cases outcome <;> rfl

/-- Reading from a response fails exactly when the response does not hold what the command asks
for. -/
structure Reads {α : Type} (command : Command) (read : Document → Except CommandError α) :
    Prop where
  ok : ∀ document value, read document = .ok value → command.Payload document
  error : ∀ document error, read document = .error error → command.Misanswers document error

theorem reads_version : Reads .version versionOf :=
  ⟨fun _ version h => ⟨version, versionOf_eq_ok_iff.mp h⟩, fun _ _ => versionOf_of_error⟩

theorem reads_cavities : Reads .cavities cavitiesOf := by
  refine ⟨fun document cavities h => ?_, fun _ _ => cavitiesOf_of_error⟩
  rcases cavitiesOf_cases document with ⟨names, hlists, -⟩ | ⟨-, hread⟩ | ⟨-, hread⟩
  · exact ⟨names, hlists⟩
  all_goals cases h.symm.trans hread

/-- What a command comes to on a session whose server has received these commands. -/
inductive Asked {α : Type} (server : Server) (timeout : Duration) (received : List Command)
    (command : Command) (read : Document → Except CommandError α) (next : Session) :
    Except CommandError α → Prop
  | completed {document : Document} {value : α}
    (completes : server.Completes received command document)
    (sent : next.received = received ++ [command]) (holds : read document = .ok value) :
    Asked server timeout received command read next (.ok value)
  | failed {error : CommandError}
    (fails : server.Fails timeout received command next.received error) :
    Asked server timeout received command read next (.error error)

section

variable {α : Type} {command : Command} {read : Document → Except CommandError α}
  {received : List Command} {next : Session}

/-- A command that is answered is completed, rejected, or answered with something else than it asks
for. -/
theorem asked_of_answers (reads : Reads command read) (sent : next.received = received ++ [command])
    {document : Document} (answers : server.Answers received command document) :
    Asked server timeout received command read next
      ((classify command.name document).bind read) := by
  by_cases haccepting : Accepting document
  · rw [classify_accepted command.name haccepting, Except.bind]
    cases hread : read document with
    | ok value => exact .completed ⟨answers, haccepting, reads.ok document value hread⟩ sent hread
    | error error =>
      exact .failed (sent ▸ .misanswered answers haccepting (reads.error document error hread))
  · rw [classify_rejected command.name haccepting]
    exact .failed (sent ▸ .rejected answers haccepting)

/-- A command that is not answered fails: the reading ends, or no response comes in time. -/
theorem asked_of_silence (sent : next.received = received ++ [command])
    (taken : server.refusal (received ++ [command]) = none)
    (reading : server.ending received = none)
    (silent : server.responses (received ++ [command]) = []) :
    Asked server timeout received command read next
      ((answer command timeout (server.ending (received ++ [command])).isNone []).bind read) := by
  cases hending : server.ending (received ++ [command]) with
  | none => exact .failed (sent ▸ .late taken silent hending)
  | some exit => exact .failed (sent ▸ .cut taken reading silent hending)

end

/-- **A command on a session that attends to a server** is completed, or it fails for its reason. -/
theorem Attends.ask {α : Type} (attends : Attends listeners timeout server session)
    (calm : Calm listeners) {command : Command} {read : Document → Except CommandError α}
    (reads : Reads command read) :
    Attends listeners timeout server (session.ask server command read).1 ∧
      Asked server timeout session.received command read (session.ask server command read).1
        (session.ask server command read).2 := by
  obtain ⟨ready, called⟩ := attends.ready.call calm server command
  rw [Session.ask]
  generalize session.call server command = after at ready called
  obtain ⟨next, outcome⟩ := after
  dsimp only at ready called ⊢
  cases called with
  | unsent refusal exit received events =>
    refine ⟨attends.unreceived ready exit received events, .failed ?_⟩
    rw [received]
    exact .unsent refusal
  | interrupted taken ended exit received events =>
    refine ⟨attends.unreceived ready exit received events, .failed ?_⟩
    rw [received]
    exact .ended taken (attends.exit.symm.trans ended)
  | sent taken reading exit received events =>
    have attendsNext := attends.received ready reading exit received events
    refine ⟨attendsNext, ?_⟩
    have hreading : server.ending session.received = none := attends.exit.symm.trans reading
    have hexit := attendsNext.exit
    rw [received] at hexit
    show Asked server timeout session.received command read next
      ((answer command timeout next.exit.isNone
        (server.responses (session.received ++ [command]))).bind read)
    cases hresponses : server.responses (session.received ++ [command]) with
    | nil =>
      rw [hexit]
      exact asked_of_silence received taken hreading hresponses
    | cons document rest =>
      exact asked_of_answers reads received ⟨taken, hreading, by rw [hresponses]; rfl⟩

/-! ## Opening -/

/-- What opening a session with a server comes to. -/
inductive Opening (settings : SessionSettings) (listeners : List Recorder) (server : Server)
    (next : Session) : Except SessionError Unit → Prop
  /-- The server does not say its version. -/
  | unversioned {error : CommandError}
    (fails : server.Fails settings.responseTimeout [] .version next.received error) :
    Opening settings listeners server next (.error (.handshake error))
  /-- The server does not list its cavities. -/
  | unlisted {document : Document} {error : CommandError}
    (version : server.Completes [] .version document)
    (fails : server.Fails settings.responseTimeout [.version] .cavities next.received error) :
    Opening settings listeners server next (.error (.handshake error))
  /-- The server does both, and the session shows the cavities. -/
  | opened {document listing : Document} {names : List String}
    (version : server.Completes [] .version document)
    (cavities : server.Completes [.version] .cavities listing) (lists : Lists listing names)
    (received : next.received = [.version, .cavities])
    (attends : Attends listeners settings.responseTimeout server next)
    (shows : next.cavities = .ofList names) :
    Opening settings listeners server next (.ok ())

/-- Attending is a matter of the connection, the end of reading and the commands alone. -/
theorem Attends.of_eq {next : Session} (attends : Attends listeners timeout server session)
    (connection : next.connection = session.connection) (exit : next.exit = session.exit)
    (received : next.received = session.received) : Attends listeners timeout server next := by
  refine ⟨⟨?_, ?_⟩, ?_, fun name => ?_⟩
  · rw [connection, exit, attends.ready.console]
  · rw [connection, exit, attends.ready.dispatcher]
  · rw [exit, received, attends.exit]
  · rw [heard_eq, connection, received, ← heard_eq, attends.told name]

/-- The second command of an opening. -/
theorem opening_refresh (calm : Calm listeners) {settings : SessionSettings} {document : Document}
    (attends : Attends listeners settings.responseTimeout server session)
    (received : session.received = [.version])
    (there : session.cache.index < session.caches.lists.length)
    (version : server.Completes [] .version document) :
    Opening settings listeners server (session.refreshCavities server).1
      ((session.refreshCavities server).2.mapError .handshake) := by
  obtain ⟨attendsAsked, asked⟩ := attends.ask calm reads_cavities
  rw [← askCavities_eq] at attendsAsked asked
  rw [received] at asked
  cases hasked : (session.askCavities server).2 with
  | error error =>
    rw [hasked] at asked
    rw [refreshCavities_of_error hasked]
    cases asked with
    | failed fails => exact .unlisted version fails
  | ok cavities =>
    rw [hasked] at asked
    rw [refreshCavities_of_ok hasked]
    cases asked with
    | completed completes sent holds =>
      rename_i listing
      rcases cavitiesOf_cases listing with ⟨names, hlists, hread⟩ | ⟨-, hread⟩ | ⟨-, hread⟩
      · cases hread.symm.trans holds
        refine .opened version completes hlists sent (attendsAsked.of_eq rfl rfl rfl) ?_
        exact CavityCaches.snapshot_replace there (.ofList names)
      all_goals cases hread.symm.trans holds

/-- **Opening a session** comes to one of three things. -/
theorem opening_openWith (calm : Calm listeners) (settings : SessionSettings)
    (caches : CavityCaches) (cache : CavityHandle) (there : cache.index < caches.lists.length)
    (server : Server) :
    Opening settings listeners server (openWith settings listeners caches cache server).1
      (openWith settings listeners caches cache server).2 := by
  obtain ⟨attends, asked⟩ :=
    (attends_start calm settings caches cache server).ask calm reads_version
  rw [← askVersion_eq, ← greeted] at attends asked
  rw [openWith_eq]
  cases hversion : ((greeted settings listeners caches cache server).askVersion server).2 with
  | error error =>
    rw [hversion] at asked
    rw [handshake_of_error hversion]
    cases asked with
    | failed fails => exact .unversioned fails
  | ok version =>
    rw [hversion] at asked
    rw [handshake_of_ok hversion]
    cases asked with
    | completed completes sent holds =>
      refine opening_refresh calm (attends.of_eq rfl rfl rfl) sent ?_ completes
      obtain ⟨hcaches, hcache⟩ := greeted_caches settings listeners caches cache server
      rw [← hcaches, ← hcache] at there
      exact there

end Session

end CavityConsole

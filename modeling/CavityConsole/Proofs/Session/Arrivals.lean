import CavityConsole.Proofs.Console.Correlation
import CavityConsole.Proofs.Dispatch.Verdict
import CavityConsole.Proofs.Session.Feeding
import CavityConsole.Session.Server

/-!
# What arrives at a connection

Arrivals are dispatched up to the end of reading, which one of them may be. The lines before it have
two sides: the responses on them go to the slot of the console, and what the listeners are told of
them is written down (`Verdict.told`).

**The law** (`perform_actions`): carrying out the arrivals at a connection whose listeners do not
break down leaves the console that the responses leave, and the listeners have been told of every
dispatched line, in order; at the end of reading the connection is let go of.
-/

namespace CavityConsole

open Console

namespace Arrival

/-- How the reading ends at an arrival, if it does: by itself, or because a line is no document. -/
def ending : Arrival → Option ReaderExit
  | .stop exit => some exit
  | .line text =>
    match Document.ofLine text with
    | .error error => some (.failed (.undecodable error))
    | .ok _ => none

/-- The line that arrives, if one does. -/
def text? : Arrival → Option String
  | .line text => some text
  | .stop _ => none

/-- The lines that are dispatched: all before the end of reading. -/
def dispatched (arrivals : List Arrival) : List String :=
  (arrivals.takeWhile (·.ending.isNone)).filterMap text?

/-- How the reading ends, if it does. -/
def readingEnd (arrivals : List Arrival) : Option ReaderExit := arrivals.findSome? ending

theorem dispatched_cons_of_ending {arrival : Arrival} {exit : ReaderExit}
    (h : arrival.ending = some exit) (rest : List Arrival) : dispatched (arrival :: rest) = [] := by
  rw [dispatched, List.takeWhile_cons, h]
  rfl

theorem dispatched_cons_line {text : String} {document : Document}
    (h : Document.ofLine text = .ok document) (rest : List Arrival) :
    dispatched (.line text :: rest) = text :: dispatched rest := by
  rw [dispatched, List.takeWhile_cons, ending, h]
  rfl

theorem readingEnd_cons_of_ending {arrival : Arrival} {exit : ReaderExit}
    (h : arrival.ending = some exit) (rest : List Arrival) :
    readingEnd (arrival :: rest) = some exit := by
  rw [readingEnd, List.findSome?_cons, h]

theorem readingEnd_cons_of_none {arrival : Arrival} (h : arrival.ending = none)
    (rest : List Arrival) : readingEnd (arrival :: rest) = readingEnd rest := by
  rw [readingEnd, List.findSome?_cons, h]
  rfl

/-- What comes behind the end of reading is not dispatched. -/
theorem dispatched_append (arrivals later : List Arrival) :
    dispatched (arrivals ++ later) =
      dispatched arrivals ++ if (readingEnd arrivals).isNone then dispatched later else [] := by
  induction arrivals with
  | nil => rfl
  | cons arrival arrivals ih =>
    rw [List.cons_append]
    cases hending : arrival.ending with
    | some exit =>
      rw [dispatched_cons_of_ending hending, dispatched_cons_of_ending hending,
        readingEnd_cons_of_ending hending]
      rfl
    | none =>
      cases arrival with
      | stop exit => cases hending
      | line text =>
        cases hline : Document.ofLine text with
        | error error =>
          rw [ending, hline] at hending
          cases hending
        | ok document =>
          rw [dispatched_cons_line hline, dispatched_cons_line hline,
            readingEnd_cons_of_none hending, ih, List.cons_append]

theorem readingEnd_append (arrivals later : List Arrival) :
    readingEnd (arrivals ++ later) = (readingEnd arrivals).or (readingEnd later) :=
  List.findSome?_append

/-- Only documents are dispatched. -/
theorem document_of_dispatched {arrivals : List Arrival} {text : String}
    (h : text ∈ dispatched arrivals) : ∃ document, Document.ofLine text = .ok document := by
  obtain ⟨arrival, harrival, htext⟩ := List.mem_filterMap.mp h
  have hending := List.mem_takeWhile_imp harrival
  cases arrival with
  | stop exit => cases htext
  | line other =>
    cases htext
    cases hline : Document.ofLine text with
    | ok document => exact ⟨document, rfl⟩
    | error error =>
      rw [ending, hline] at hending
      cases hending

/-- At a connection the dispatched lines arrive, and at the end of reading it is let go of. -/
theorem actions_eq (arrivals : List Arrival) :
    actions arrivals =
      ((dispatched arrivals).map .line ++ (readingEnd arrivals).toList.map fun _ => .letGo,
        readingEnd arrivals) := by
  induction arrivals with
  | nil => rfl
  | cons arrival arrivals ih =>
    cases arrival with
    | stop exit => rfl
    | line text =>
      cases hline : Document.ofLine text with
      | error error =>
        have hending : (Arrival.line text).ending = some (.failed (.undecodable error)) := by
          rw [ending, hline]
        rw [actions, hline, dispatched_cons_of_ending hending, readingEnd_cons_of_ending hending]
        rfl
      | ok document =>
        have hending : (Arrival.line text).ending = none := by rw [ending, hline]
        rw [actions, hline, dispatched_cons_line hline, readingEnd_cons_of_none hending]
        dsimp only
        rw [ih]
        rfl

end Arrival

/-! ## What is told of a line -/

/-- What a response listener is told: the document of a response. -/
def Verdict.response? : Verdict → Option Document
  | .response document => some document
  | _ => none

/-- What a notification listener is told: the notification, or that a document is none that is
understood. -/
def Verdict.told : Verdict → Option Notification
  | .notification n => some n
  | .unparseable => some (.errorStatus unparseableMessage)
  | .unrecognised => some (.errorStatus unrecognisedMessage)
  | .refused _ | .response _ | .unknownType => none

/-- What a notification listener is told of lines, in order. -/
def notificationsOf (lines : List String) : List Notification :=
  lines.filterMap fun line => (Verdict.ofLine line).told

/-- The responses on lines, in order. -/
def responsesOn (lines : List String) : List Document := lines.filterMap responseOf

theorem notificationsOf_append (lines later : List String) :
    notificationsOf (lines ++ later) = notificationsOf lines ++ notificationsOf later :=
  List.filterMap_append

theorem responsesOn_append (lines later : List String) :
    responsesOn (lines ++ later) = responsesOn lines ++ responsesOn later :=
  List.filterMap_append

theorem responseOf_eq (line : String) : responseOf line = (Verdict.ofLine line).response? := by
  cases hline : Document.ofLine line with
  | error error => rw [responseOf, Verdict.ofLine, hline]; rfl
  | ok document =>
    rw [responseOf, hline, Verdict.ofLine_of_document hline, Verdict.ofDocument]
    dsimp only
    split
    · rfl
    split
    · split <;> rfl
    · rfl

theorem responsesOn_singleton (line : String) :
    responsesOn [line] = (Verdict.ofLine line).response?.toList := by
  rw [responsesOn, List.filterMap_cons, responseOf_eq]
  cases (Verdict.ofLine line).response? <;> rfl

theorem notificationsOf_singleton (line : String) :
    notificationsOf [line] = (Verdict.ofLine line).told.toList := by
  rw [notificationsOf, List.filterMap_cons]
  cases (Verdict.ofLine line).told <;> rfl

/-! ## What lines make of a connection -/

namespace Connection

/-- All listeners return from all calls. -/
def Calm (listeners : List Recorder) : Prop := ∀ listener ∈ listeners, listener.breaksOn = none

/-- The calls that tell listeners of notifications. -/
def tellings (listeners : List Recorder) (notifications : List Notification) :
    List ConnectionEvent :=
  notifications.flatMap fun n => listeners.map fun listener => .heard listener.name n

/-- What responses and notifications make of a connection. -/
structure Receives (listeners : List Recorder) (connection : Connection)
    (responses : List Document) (notifications : List Notification) (after : Connection) :
    Prop where
  /-- The console is offered the responses. -/
  console : after.console = connection.console.after (responses.map .deliver)
  /-- The connection is still held. -/
  dispatcher : after.dispatcher = connection.dispatcher
  /-- The listeners are told the notifications. -/
  events : after.events = connection.events ++ tellings listeners notifications

variable {listeners : List Recorder} {connection : Connection}

theorem receives_nil (listeners : List Recorder) (connection : Connection) :
    Receives listeners connection [] [] connection := ⟨rfl, rfl, (List.append_nil _).symm⟩

theorem Receives.trans {middle after : Connection} {responses responses' : List Document}
    {notifications notifications' : List Notification}
    (h : Receives listeners connection responses notifications middle)
    (hlater : Receives listeners middle responses' notifications' after) :
    Receives listeners connection (responses ++ responses') (notifications ++ notifications')
      after where
  console := by rw [hlater.console, h.console, List.map_append, after_append]
  dispatcher := hlater.dispatcher.trans h.dispatcher
  events := by
    rw [hlater.events, h.events, tellings, tellings, tellings, List.flatMap_append,
      List.append_assoc]

/-- Log entries are neither the console's business nor the listeners'. -/
theorem receives_note (entries : List LogEntry) (connection : Connection) :
    Receives listeners connection [] [] (entries.foldl note connection) := by
  induction entries generalizing connection with
  | nil => exact receives_nil listeners connection
  | cons entry entries ih => exact ⟨(ih _).console, (ih _).dispatcher, (ih _).events⟩

/-- Listeners that return are all told. -/
theorem receives_notification (calm : Calm listeners) (n : Notification)
    (connection : Connection) :
    Receives listeners connection [] [n]
      (Dispatcher.makeCalls hear connection (listeners.map (.notification · n))).1 := by
  have hcalls : Dispatcher.makeCalls hear connection (listeners.map (.notification · n)) =
      ({ connection with
          events := connection.events ++ listeners.map fun listener => .heard listener.name n },
        true) := by
    induction listeners generalizing connection with
    | nil => simp [Dispatcher.makeCalls]
    | cons listener listeners ih =>
      obtain ⟨hlistener, hrest⟩ := List.forall_mem_cons.mp calm
      have hcall : hear connection (.notification listener n) =
          .ok (connection.observe (.heard listener.name n)) := by
        rw [hear, hlistener]
        rfl
      rw [List.map_cons, Dispatcher.makeCalls, hcall]
      dsimp only
      rw [ih hrest]
      simp [observe]
  rw [hcalls]
  exact ⟨rfl, rfl, by rw [tellings, List.flatMap_singleton]⟩

/-- The calls for a document tell the console or the listeners what its verdict says. -/
theorem receives_document (calm : Calm listeners) (document : Document)
    (connection : Connection) :
    Receives listeners connection (Verdict.ofDocument document).response?.toList
      (Verdict.ofDocument document).told.toList
      (Dispatcher.makeCalls hear connection
        ((feeding listeners).calls (Routing.ofDocument document).1)).1 := by
  rw [Verdict.calls_ofDocument]
  cases Verdict.ofDocument document with
  | response document => exact ⟨rfl, rfl, (List.append_nil _).symm⟩
  | notification n => exact receives_notification calm n connection
  | unparseable => exact receives_notification calm (.errorStatus unparseableMessage) connection
  | unrecognised => exact receives_notification calm (.errorStatus unrecognisedMessage) connection
  | refused error => exact receives_nil listeners connection
  | unknownType => exact receives_nil listeners connection

/-- A line that is not refused is received and no more. -/
theorem scriptedLine_of_taken {dispatcher : Dispatcher Recorder Unit} {line : String}
    (held : connection.dispatcher = some dispatcher)
    (taken : ∀ error, (connection.receiveLine line).2 ≠ .refused error) :
    connection.scriptedLine line = (connection.receiveLine line).1 := by
  rw [scriptedLine, held, if_neg (by simp)]
  generalize connection.receiveLine line = received at taken
  obtain ⟨after, outcome⟩ := received
  cases outcome with
  | refused error => exact absurd rfl (taken error)
  | dispatched | brokeDown => rfl

/-- **One line** that is a document. -/
theorem receives_line (calm : Calm listeners)
    (held : connection.dispatcher = some (feeding listeners)) {line : String}
    {document : Document} (hline : Document.ofLine line = .ok document) :
    Receives listeners connection (responsesOn [line]) (notificationsOf [line])
      (connection.scriptedLine line) := by
  have hreceived : connection.receiveLine line =
      ((Dispatcher.makeCalls hear ((Routing.ofDocument document).2.foldl note connection)
          ((feeding listeners).calls (Routing.ofDocument document).1)).1,
        if (Dispatcher.makeCalls hear ((Routing.ofDocument document).2.foldl note connection)
          ((feeding listeners).calls (Routing.ofDocument document).1)).2 then .dispatched
        else .brokeDown) := by
    rw [receiveLine, held]
    dsimp only
    rw [Dispatcher.dispatchLine, hline]
  have hscripted : connection.scriptedLine line = (connection.receiveLine line).1 := by
    apply scriptedLine_of_taken held
    intro error
    rw [hreceived]
    dsimp only
    split
    · exact LineOutcome.noConfusion
    · exact LineOutcome.noConfusion
  rw [hscripted, hreceived, responsesOn_singleton, notificationsOf_singleton,
    Verdict.ofLine_of_document hline]
  exact (receives_note _ connection).trans (receives_document calm document _)

/-- Dispatched lines, in front of anything else that happens. -/
theorem perform_lines (calm : Calm listeners) {lines : List String}
    (documents : ∀ line ∈ lines, ∃ document, Document.ofLine line = .ok document)
    (held : connection.dispatcher = some (feeding listeners)) (actions : List Action) :
    ∃ after, Receives listeners connection (responsesOn lines) (notificationsOf lines) after ∧
      connection.perform (lines.map .line ++ actions) = after.perform actions := by
  induction lines generalizing connection with
  | nil => exact ⟨connection, receives_nil listeners connection, rfl⟩
  | cons line lines ih =>
    obtain ⟨⟨document, hline⟩, hrest⟩ := List.forall_mem_cons.mp documents
    have hfirst := receives_line calm held hline
    obtain ⟨after, hafter, hperform⟩ := ih hrest (hfirst.dispatcher.trans held)
    refine ⟨after, ?_, hperform⟩
    rw [← List.singleton_append, responsesOn_append, notificationsOf_append]
    exact hfirst.trans hafter

/-- What arrivals make of a connection. -/
structure Takes (listeners : List Recorder) (connection : Connection) (arrivals : List Arrival)
    (after : Connection) : Prop where
  /-- The console is offered the responses, and told of the end of reading. -/
  console : after.console = connection.console.after
    ((responsesOn (Arrival.dispatched arrivals)).map .deliver ++
      (Arrival.readingEnd arrivals).toList.map fun _ => .disconnect)
  /-- The connection is held up to the end of reading. -/
  dispatcher : after.dispatcher =
    if (Arrival.readingEnd arrivals).isNone then some (feeding listeners) else none
  /-- The listeners are told of every dispatched line. -/
  events : after.events =
    connection.events ++ tellings listeners (notificationsOf (Arrival.dispatched arrivals))

/-- **Arrivals at a connection that is held.** -/
theorem perform_actions (calm : Calm listeners)
    (held : connection.dispatcher = some (feeding listeners)) (arrivals : List Arrival) :
    ∃ after, Takes listeners connection arrivals after ∧
      connection.perform (Arrival.actions arrivals).1 = (after, .written) := by
  obtain ⟨after, hafter, hperform⟩ := perform_lines calm
    (fun _ => Arrival.document_of_dispatched) held
    ((Arrival.readingEnd arrivals).toList.map fun _ => .letGo)
  rw [Arrival.actions_eq, hperform]
  cases hend : Arrival.readingEnd arrivals with
  | none =>
    refine ⟨after, ⟨?_, ?_, hafter.events⟩, rfl⟩
    · rw [hafter.console, hend, Option.toList_none, List.map_nil, List.append_nil]
    · rw [hafter.dispatcher, held, hend]
      rfl
  | some exit =>
    refine ⟨after.letGo, ⟨?_, ?_, hafter.events⟩, rfl⟩
    · rw [hend, after_append, ← hafter.console]
      rfl
    · rw [hend]
      rfl

end Connection

end CavityConsole

import CavityConsole.Proofs.Console.Accounting
import CavityConsole.Proofs.Json.Printed
import CavityConsole.Proofs.Protocol.Line
import CavityConsole.Proofs.Session.Calls

/-!
# Logged documents

A document that is lost is logged, and the entry is all that is left of it. There are four entries
of that kind: a document that is neither a response nor a notification, and a response that is
refused by the closed window, refused by the full slot, or left over when a command begins. Each has
one field, the compact text of its document.

Whatever happens at a connection, such an entry is about a document that a line of the server holds
(`Connection.Knows.lived`): documents reach the log from a line that is being dispatched, or from
the slot, and the slot holds nothing else either. One step keeps this, and so does a whole history.

**The law** (`logged_documents_read_back`): the text of such an entry is a line again, and a
document again. It is the logged document with its real numbers read again, so the keys at every
depth, the order, the strings and the integers are the same; a real number is the same or next to
the one that was logged.

**What it does not establish.** That the log is written anywhere.
-/

namespace CavityConsole

/-- The document that an entry is about, if it is about one. -/
def LogEntry.document? : LogEntry → Option Document
  | .unrecognised document => some document
  | entry => entry.discarded?.map (·.2)

/-- An entry about a document shows it and nothing else. -/
theorem LogEntry.shows_document {entry : LogEntry} {document : Document}
    (h : entry.document? = some document) :
    entry.fields = [("document", document.compact)] ∨
      entry.fields = [("response", document.compact)] := by
  cases entry with
  | unrecognised =>
    cases h
    exact .inl rfl
  | idleResponse | surplusResponse | strayResponse =>
    cases h
    exact .inr rfl
  | unknownNotification | invalidNotification | recovered | closing => cases h

/-- Entries are about documents of a kind. -/
def Concern (known : Document → Prop) (entries : List LogEntry) : Prop :=
  ∀ entry ∈ entries, ∀ document, entry.document? = some document → known document

section

variable {known : Document → Prop}

theorem concern_nil : Concern known [] := List.forall_mem_nil _

theorem Concern.append {entries more : List LogEntry} (h : Concern known entries)
    (hmore : Concern known more) : Concern known (entries ++ more) :=
  List.forall_mem_append.mpr ⟨h, hmore⟩

section

variable {entry : LogEntry} (h : ∀ document, entry.document? = some document → known document)
include h

theorem Concern.cons {entries : List LogEntry} (hentries : Concern known entries) :
    Concern known (entry :: entries) :=
  List.forall_mem_cons.mpr ⟨h, hentries⟩

theorem concern_singleton : Concern known [entry] := .cons h concern_nil

end

end

/-- What a document is logged with when it is dispatched is about it. -/
theorem Routing.concern_ofDocument {known : Document → Prop} {document : Document}
    (h : known document) : Concern known (Routing.ofDocument document).2 := by
  unfold Routing.ofDocument
  split
  · exact concern_nil
  split
  · split
    · exact concern_nil
    split
    all_goals
      refine concern_singleton ?_
      rintro other ⟨⟩
  · refine concern_singleton ?_
    rintro other ⟨⟩
    exact h

/-- The response listeners are for the document itself. -/
theorem Routing.eq_of_responses {document response : Document}
    (h : (Routing.ofDocument document).1 = .responses response) : response = document := by
  unfold Routing.ofDocument at h
  split at h
  · exact (Routing.responses.inj h).symm
  split at h
  · split at h
    · cases h
    split at h <;> cases h
  · cases h

theorem Dispatcher.eq_responses_of_mem_calls {ν ρ : Type} {dispatcher : Dispatcher ν ρ}
    {routing : Routing} {listener : ρ} {response : Document}
    (h : .response listener response ∈ dispatcher.calls routing) :
    routing = .responses response := by
  cases routing with
  | responses document =>
    obtain ⟨_, -, heq⟩ := List.mem_map.mp h
    cases heq
    rfl
  | notifications notification =>
    obtain ⟨_, -, heq⟩ := List.mem_map.mp h
    cases heq
  | nobody => cases h

/-! ## The slot -/

namespace Console

variable {known : Document → Prop} {console : Console} {s : Step}

/-- What is offered to the slot is kept, or an entry is about it. -/
theorem concern_offer {response : Document} (h : ∀ document ∈ console.slot.pending, known document)
    (hresponse : known response) :
    (∀ document ∈ (console.slot.offer response).1.pending, known document) ∧
      Concern known (console.slot.offer response).2 := by
  have hentry : ∀ document, some response = some document → known document := by
    rintro document ⟨⟩
    exact hresponse
  rcases console.offer_cases response with ⟨-, offer⟩ | ⟨-, offer⟩ | ⟨-, -, offer⟩
  · rw [offer]
    exact ⟨h, concern_singleton hentry⟩
  · rw [offer]
    exact ⟨h, concern_singleton hentry⟩
  · rw [offer]
    exact ⟨hentry, concern_nil⟩

/-- What draining reports is about what was left over. -/
theorem concern_drain (command : Command)
    (h : ∀ document ∈ console.slot.pending, known document) :
    Concern known (console.step (.drain command)).2.log := by
  cases hcall : console.call with
  | some call =>
    rw [step, hcall]
    exact concern_nil
  | none =>
    rw [step, hcall, Slot.drain_eq]
    cases hpending : console.slot.pending with
    | none => exact concern_nil
    | some response =>
      refine .cons ?_ (concern_singleton ?_)
      · rintro document ⟨⟩
        exact h response hpending
      · rintro document ⟨⟩

/-- **A step of a console** keeps to the documents in its slot and those that it delivers. -/
theorem concern_step (h : ∀ document ∈ console.slot.pending, known document)
    (hs : ∀ response, s = .deliver response → known response) :
    (∀ document ∈ (console.step s).1.slot.pending, known document) ∧
      Concern known (console.step s).2.log := by
  have hnone : ∀ document, (none : Option Document) = some document → known document := by
    rintro document ⟨⟩
  constructor
  · have ht := console.transition s
    generalize (console.step s).1 = next at ht ⊢
    cases ht with
    | deliver response => exact (concern_offer h (hs response rfl)).1
    | drain _ =>
      rw [Slot.drain_pending]
      exact hnone
    | endWait _ =>
      rw [Slot.endWait_pending]
      exact hnone
    | disconnect | begin _ | wrote _ | writeFailed _ | release _ | notDue _ => exact h
  · cases s with
    | deliver response => exact (concern_offer h (hs response rfl)).2
    | drain command => exact concern_drain command h
    | disconnect => exact concern_nil
    | begin | wrote | writeFailed | endWait | release =>
      rw [step]
      split <;> exact concern_nil

end Console

/-! ## Histories of a connection -/

/-- A part of the history of a connection. -/
inductive Episode where
  /-- Actions while no command is outstanding. -/
  | arrivals (actions : List Connection.Action)
  /-- A command, and actions while its line is being written. -/
  | command (command : Command) (actions : List Connection.Action)

/-- The lines that the server sends. -/
def Episode.lines : Episode → List String
  | .arrivals actions | .command _ actions =>
    actions.filterMap fun
      | .line text => some text
      | _ => none

namespace Connection

/-- A connection behind one part of its history. -/
def live (connection : Connection) : Episode → Connection
  | .arrivals actions => (connection.perform actions).1
  | .command command actions => (connection.call command actions).1

/-- A connection behind a history. -/
def lived (connection : Connection) (episodes : List Episode) : Connection :=
  episodes.foldl live connection

/-- The slot and the log of a connection are about documents of a kind. -/
structure Knows (known : Document → Prop) (connection : Connection) : Prop where
  pending : ∀ document ∈ connection.console.slot.pending, known document
  logged : Concern known connection.log

/-- The lines of some actions hold documents of a kind. -/
def Bring (known : Document → Prop) (actions : List Action) : Prop :=
  ∀ text, .line text ∈ actions → ∀ document, Document.ofLine text = .ok document → known document

variable {known : Document → Prop} {connection : Connection}

theorem knows_start (timeout : Duration) (listeners : List Recorder) :
    Knows known (start timeout listeners) := by
  refine ⟨?_, concern_nil⟩
  rintro document ⟨⟩

theorem Knows.observe (h : Knows known connection) (event : ConnectionEvent) :
    Knows known (connection.observe event) := ⟨h.pending, h.logged⟩

theorem Knows.step (h : Knows known connection) {s : Console.Step}
    (hs : ∀ response, s = .deliver response → known response) :
    Knows known (connection.step s).1 :=
  ⟨(Console.concern_step h.pending hs).1, h.logged.append (Console.concern_step h.pending hs).2⟩

/-- Steps of a call. -/
theorem Knows.own (h : Knows known connection) {s : Console.Step} (hs : s.isArrival = false) :
    Knows known (connection.step s).1 := by
  refine h.step ?_
  rintro response rfl
  cases hs

theorem Knows.steps (h : Knows known connection) {steps : List Console.Step}
    (hsteps : ∀ s ∈ steps, s.isArrival = false) :
    Knows known (steps.foldl (fun connection s => (connection.step s).1) connection) := by
  induction steps generalizing connection with
  | nil => exact h
  | cons s steps ih =>
    obtain ⟨hs, hsteps⟩ := List.forall_mem_cons.mp hsteps
    exact ih (h.own hs) hsteps

theorem Knows.note (h : Knows known connection) {entries : List LogEntry}
    (hentries : Concern known entries) : Knows known (entries.foldl note connection) := by
  induction entries generalizing connection with
  | nil => exact h
  | cons entry entries ih =>
    obtain ⟨hentry, hentries⟩ := List.forall_mem_cons.mp hentries
    exact ih ⟨h.pending, h.logged.append (concern_singleton hentry)⟩ hentries

/-- A call of a notification listener is observed, whether or not it returns. -/
theorem after_notification (connection : Connection) (listener : Recorder)
    (notification : Notification) :
    Dispatcher.after hear connection (.notification listener notification) =
      connection.observe (.heard listener.name notification) := by
  rw [Dispatcher.after, hear]
  split
  next state heq =>
    split at heq
    next => cases heq
    next => exact (Except.ok.inj heq).symm
  next state heq =>
    split at heq
    next => exact (Except.error.inj heq).symm
    next => cases heq

theorem Knows.after (h : Knows known connection) {call : Delivery Recorder Unit}
    (hcall : ∀ listener response, call = .response listener response → known response) :
    Knows known (Dispatcher.after hear connection call) := by
  cases call with
  | response listener document =>
    refine h.step ?_
    rintro response ⟨⟩
    exact hcall listener document rfl
  | notification listener notification =>
    rw [after_notification]
    exact h.observe _

/-- **A line** that holds a document of a kind. -/
theorem Knows.receiveLine (h : Knows known connection) {text : String}
    (hline : ∀ document, Document.ofLine text = .ok document → known document) :
    Knows known (connection.receiveLine text).1 := by
  unfold Connection.receiveLine
  cases connection.dispatcher with
  | none => exact h
  | some dispatcher =>
    dsimp only
    cases hread : Document.ofLine text with
    | error error =>
      rw [dispatcher.dispatchLine_of_error _ hread]
      exact h
    | ok document =>
      have hknown := hline document hread
      rw [Dispatcher.dispatchLine, hread]
      refine Dispatcher.makeCalls_keeps (fun state hstate call hcall => hstate.after ?_)
        (h.note (Routing.concern_ofDocument hknown))
      rintro listener response rfl
      rw [Routing.eq_of_responses (Dispatcher.eq_responses_of_mem_calls hcall)]
      exact hknown

theorem Knows.scriptedLine (h : Knows known connection) {text : String}
    (hline : ∀ document, Document.ofLine text = .ok document → known document) :
    Knows known (connection.scriptedLine text) := by
  have hreceived := h.receiveLine hline
  unfold Connection.scriptedLine
  split
  · exact h.observe _
  split
  next after error heq =>
    rw [heq] at hreceived
    exact hreceived.observe _
  next after outcome _ heq =>
    rw [heq] at hreceived
    exact hreceived

theorem Knows.letGo (h : Knows known connection) : Knows known connection.letGo := by
  have hstep : Knows known (connection.step .disconnect).1 := by
    refine h.step ?_
    rintro response ⟨⟩
  exact ⟨hstep.pending, hstep.logged⟩

theorem Knows.perform (h : Knows known connection) {actions : List Action}
    (hactions : Bring known actions) : Knows known (connection.perform actions).1 := by
  induction actions generalizing connection with
  | nil => exact h
  | cons action actions ih =>
    have hrest : Bring known actions := fun text hmem =>
      hactions text (List.mem_cons_of_mem _ hmem)
    cases action with
    | line text => exact ih (h.scriptedLine (hactions text List.mem_cons_self)) hrest
    | letGo => exact ih h.letGo hrest
    | fail | breakDown => exact h

theorem Knows.begun (h : Knows known connection) (command : Command) :
    Knows known (connection.begun command) :=
  ((h.own (s := .drain command) rfl).own (s := .begin) rfl).observe _

theorem own_stepsAfter (result : WriteResult) : ∀ s ∈ stepsAfter result, s.isArrival = false := by
  cases result <;> simp [stepsAfter, Console.Step.isArrival]

theorem Knows.concluded (h : Knows known connection) (result : WriteResult) :
    Knows known (connection.concluded result).1 :=
  (h.steps (own_stepsAfter result)).own (s := .release) rfl

/-- **A part of a history.** -/
theorem Knows.live (h : Knows known connection) {episode : Episode}
    (hlines : ∀ line ∈ episode.lines, ∀ document, Document.ofLine line = .ok document →
      known document) :
    Knows known (connection.live episode) := by
  have hbring (actions : List Action) (hsame : episode.lines = (Episode.arrivals actions).lines) :
      Bring known actions := fun text hmem =>
    hlines text (hsame ▸ List.mem_filterMap.mpr ⟨_, hmem, rfl⟩)
  cases episode with
  | arrivals actions => exact h.perform (hbring actions rfl)
  | command command actions =>
    exact ((h.begun command).perform (hbring actions rfl)).concluded _

/-- **A history**: the log and the slot are about documents on its lines. -/
theorem Knows.lived (h : Knows known connection) {episodes : List Episode}
    (hlines : ∀ line ∈ episodes.flatMap Episode.lines, ∀ document,
      Document.ofLine line = .ok document → known document) :
    Knows known (connection.lived episodes) := by
  induction episodes generalizing connection with
  | nil => exact h
  | cons episode episodes ih =>
    rw [List.flatMap_cons] at hlines
    exact ih (h.live fun line hmem => hlines line (List.mem_append_left _ hmem))
      fun line hmem => hlines line (List.mem_append_right _ hmem)

end Connection

/-! ## Reading a logged document -/

namespace Document

open Json

/-- A document whose real numbers are printed and read again. -/
def reread (document : Document) : Document :=
  document.map fun m => (m.1, m.2.mapReals Json.reread)

/-- What the compact text of a document is worth. -/
structure ReadBack (document : Document) : Prop where
  /-- It stands on one line. -/
  plain : Plain document.compact.toList
  /-- It is a document, the same one but for its real numbers. -/
  accepted : ofLine document.compact = .ok document.reread
  /-- It is the same one altogether exactly when all its real numbers are read as themselves. -/
  same : ofLine document.compact = .ok document ↔
    ∀ x, HasReal x (.object document) → Json.reread x = x
  /-- A real number is read as one of its sign that is next to it, and as itself when its digits are
  few and need no large power of ten. -/
  reals : ∀ x, HasReal x (.object document) →
    (Json.reread x).isFinite = true ∧ (Json.reread x).negative = x.negative ∧
      |(Json.reread x).amount - x.amount| ≤ x.amount / 2 ^ 49 + 1 / 2 ^ 1074 ∧
      ((taken x).1 ≤ 2 ^ 53 → (taken x).2.natAbs ≤ 22 → Json.reread x = x)

/-- **The text of a document that was read can be read.** -/
theorem readBack_of_ofLine {line : String} {document : Document}
    (h : ofLine line = .ok document) : document.ReadBack := by
  obtain ⟨tokens, -, hdenotes⟩ := ofLine_eq_ok_iff.mp h
  have hwellFormed := hdenotes.wellFormed
  have haccepted : ofLine document.compact = .ok document.reread := by
    rw [ofLine, Members.compact, parse_compact hwellFormed, mapReals_object]
    rfl
  refine ⟨?_, haccepted, ?_, fun x hx => reread_spec (hwellFormed.isFinite x hx)⟩
  · rw [Members.compact, Json.compact, String.toList_ofList]
    exact (fragment_text hwellFormed).plain
  · rw [haccepted, Except.ok.injEq, ← mapReals_eq_self_iff _ hwellFormed, mapReals_object,
      Json.object.injEq]
    rfl

end Document

/-- **Logged documents can be read back.** Whatever happens at a connection, an entry about a
document shows the compact text of a document that was on a line of the server. Such a text is a
line again, and it is that document again, but for the last bits of real numbers that are scaled in
more than one rounding. -/
theorem logged_documents_read_back (timeout : Duration) (listeners : List Recorder)
    (episodes : List Episode) :
    (∀ entry ∈ ((Connection.start timeout listeners).lived episodes).log, ∀ document,
      entry.document? = some document →
      (∃ line ∈ episodes.flatMap Episode.lines, Document.ofLine line = .ok document) ∧
        (entry.fields = [("document", document.compact)] ∨
          entry.fields = [("response", document.compact)])) ∧
      ∀ line document, Document.ofLine line = .ok document → document.ReadBack := by
  refine ⟨fun entry hentry document hdocument => ⟨?_, entry.shows_document hdocument⟩,
    fun line document => Document.readBack_of_ofLine⟩
  have hknows : Connection.Knows
      (fun document => ∃ line ∈ episodes.flatMap Episode.lines, Document.ofLine line = .ok document)
      ((Connection.start timeout listeners).lived episodes) :=
    (Connection.knows_start timeout listeners).lived fun line hline document hread =>
      ⟨line, hline, hread⟩
  exact hknows.logged entry hentry document hdocument

/-- A document with a zero behind a minus sign. -/
def signedZero : Document := [("x", .number (.real (.zero true)))]

theorem ofLine_signedZero : Document.ofLine "\x7b\"x\":-0\x7d" = .ok signedZero := by
  have hzero := Document.denotes_x (n := Document.minusZero)
    ⟨Json.wholeDigits_zero, by simp [Document.minusZero], by simp [Document.minusZero]⟩
    Document.minusZero_reads
  exact Document.ofLine_eq_ok_iff.mpr
    ⟨_, ⟨_, [], rfl, Document.spaced_x Document.minusZero, List.forall_mem_nil _⟩, hzero⟩

theorem log_signedZero :
    ((Connection.start Console.defaultTimeout []).lived
      [.arrivals [.line "\x7b\"x\":-0\x7d"]]).log = [.unrecognised signedZero] := by
  simp only [Connection.lived, List.foldl_cons, List.foldl_nil, Connection.live,
    Connection.perform, Connection.scriptedLine, Connection.receiveLine, Connection.start,
    Dispatcher.dispatchLine, ofLine_signedZero]
  rfl

theorem logged_documents_read_back_signedZero :
    (∃ line, Document.ofLine line = .ok signedZero) ∧
      signedZero.compact = "\x7b\"x\":-0.0\x7d" ∧
      Document.ofLine signedZero.compact = .ok signedZero := by
  obtain ⟨hlogged, hread⟩ := logged_documents_read_back Console.defaultTimeout []
    [.arrivals [.line "\x7b\"x\":-0\x7d"]]
  have hentry : .unrecognised signedZero ∈ ((Connection.start Console.defaultTimeout []).lived
      [.arrivals [.line "\x7b\"x\":-0\x7d"]]).log := by
    rw [log_signedZero]
    exact List.mem_singleton_self _
  have back := hread _ _ ofLine_signedZero
  obtain ⟨⟨line, -, hline⟩, -⟩ := hlogged _ hentry _ rfl
  refine ⟨⟨line, hline⟩, by decide +kernel, back.same.mpr fun x hx => ?_⟩
  have hexact := (back.reals x hx).2.2.2
  obtain _ | _ | ⟨hmember, hwithin⟩ := hx
  obtain rfl := List.mem_singleton.mp hmember
  cases hwithin
  exact hexact (by decide +kernel) (by decide +kernel)

/-- The text of the document on a line, and the text of the document on that. -/
def textsFrom (line : String) : Option (String × Option String) :=
  (Document.ofLine line).toOption.map fun document =>
    (document.compact, (Document.ofLine document.compact).toOption.map Members.compact)

theorem exists_of_textsFrom {line first second : String}
    (h : textsFrom line = some (first, some second)) :
    ∃ document other, Document.ofLine line = .ok document ∧ document.compact = first ∧
      Document.ofLine document.compact = .ok other ∧ other.compact = second := by
  unfold textsFrom at h
  cases hline : Document.ofLine line with
  | error error =>
    rw [hline] at h
    cases h
  | ok document =>
    rw [hline] at h
    obtain ⟨hfirst, hsecond⟩ := Prod.mk.inj (Option.some.inj h)
    cases hagain : Document.ofLine document.compact with
    | error error =>
      rw [hagain] at hsecond
      cases hsecond
    | ok other =>
      rw [hagain] at hsecond
      exact ⟨document, other, rfl, hfirst, hagain, Option.some.inj hsecond⟩

/-- Not every logged document is read back as it was. The text `1e-45` is scaled in two roundings to
the neighbour of the nearest number, and the digits of that neighbour are scaled to the nearest
number. -/
theorem tiny_not_read_back :
    ∃ document other, Document.ofLine "\x7b\"x\":1e-45\x7d" = .ok document ∧
      ((Connection.start Console.defaultTimeout []).lived
        [.arrivals [.line "\x7b\"x\":1e-45\x7d"]]).log.map LogEntry.fields =
          [[("document", document.compact)]] ∧
      Document.ofLine document.compact = .ok other ∧ other ≠ document := by
  have htexts : textsFrom "\x7b\"x\":1e-45\x7d" =
      some ("\x7b\"x\":1.0000000000000001e-45\x7d", some "\x7b\"x\":1e-45\x7d") := by
    decide +kernel
  obtain ⟨document, other, hline, hfirst, hagain, hsecond⟩ := exists_of_textsFrom htexts
  refine ⟨document, other, hline, ?_, hagain, ?_⟩
  · rw [hfirst]
    decide +kernel
  · rintro rfl
    rw [hfirst] at hsecond
    exact absurd hsecond (by decide)

end CavityConsole

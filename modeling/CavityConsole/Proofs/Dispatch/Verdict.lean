import CavityConsole.Dispatch.Dispatcher

/-!
# What a line comes to

Every line comes to exactly one of six things (`Verdict.Of`, `Verdict.of_iff`), and that settles who
is called with what (`Verdict.calls`). A dispatcher makes exactly these calls
(`calls_ofDocument`).
-/

namespace CavityConsole

/-- What a line comes to. -/
inductive Verdict where
  /-- It is no document. -/
  | refused (error : DecodeError)
  /-- It is a response. -/
  | response (document : Document)
  /-- It is a notification. -/
  | notification (notification : Notification)
  /-- It is a notification that cannot be made sense of. -/
  | unparseable
  /-- It is a notification of a type that is not known. -/
  | unknownType
  /-- It is neither a response nor a notification. -/
  | unrecognised

namespace Verdict

/-- A document has a member, whatever its value. -/
def Has (document : Document) (key : String) : Prop := ∃ value, (key, value) ∈ document

/-- When a line comes to what. A response is one whatever else it has. -/
inductive Of (line : String) : Verdict → Prop where
  | refused {error : DecodeError} (h : Document.ofLine line = .error error) :
    Of line (.refused error)
  | response {document : Document} (h : Document.ofLine line = .ok document)
    (hresponse : Has document "response") : Of line (.response document)
  | notification {document : Document} {notification : Notification}
    (h : Document.ofLine line = .ok document) (hresponse : ¬ Has document "response")
    (hnotification : Has document "notification")
    (hread : Notification.ofDocument document = .ok notification) :
    Of line (.notification notification)
  | unparseable {document : Document} {error : NotificationError}
    (h : Document.ofLine line = .ok document) (hresponse : ¬ Has document "response")
    (hnotification : Has document "notification")
    (hread : Notification.ofDocument document = .error error)
    (herror : ∀ kind, error ≠ .unknownType kind) : Of line .unparseable
  | unknownType {document : Document} {kind : String}
    (h : Document.ofLine line = .ok document) (hresponse : ¬ Has document "response")
    (hnotification : Has document "notification")
    (hread : Notification.ofDocument document = .error (.unknownType kind)) :
    Of line .unknownType
  | unrecognised {document : Document} (h : Document.ofLine line = .ok document)
    (hresponse : ¬ Has document "response") (hnotification : ¬ Has document "notification") :
    Of line .unrecognised

/-- What a document comes to. -/
def ofDocument (document : Document) : Verdict :=
  if Members.contains document "response" then .response document
  else if Members.contains document "notification" then
    match Notification.ofDocument document with
    | .ok n => .notification n
    | .error (.unknownType _) => .unknownType
    | .error _ => .unparseable
  else .unrecognised

/-- What a line comes to. -/
def ofLine (line : String) : Verdict :=
  match Document.ofLine line with
  | .error error => .refused error
  | .ok document => ofDocument document

/-- The calls that a verdict makes: every listener once for each registration, in order. -/
def calls {ν ρ : Type} (notificationListeners : List ν) (responseListeners : List ρ) :
    Verdict → List (Delivery ν ρ)
  | .refused _ => []
  | .response document => responseListeners.map (.response · document)
  | .notification n => notificationListeners.map (.notification · n)
  | .unparseable =>
    notificationListeners.map (.notification · (.errorStatus unparseableMessage))
  | .unknownType => []
  | .unrecognised =>
    notificationListeners.map (.notification · (.errorStatus unrecognisedMessage))

/-! ## Exactly one verdict -/

theorem contains_iff (document : Document) (key : String) :
    Members.contains document key = true ↔ Has document key := by
  unfold Members.contains Members.get? Has
  rw [List.lookup_isSome_iff]
  constructor
  · rintro ⟨member, hmember, hkey⟩
    rw [eq_of_beq hkey]
    exact ⟨member.2, hmember⟩
  · rintro ⟨value, hmember⟩
    exact ⟨(key, value), hmember, beq_self_eq_true key⟩

variable {line : String} {document : Document}

theorem ofLine_of_document (h : Document.ofLine line = .ok document) :
    ofLine line = ofDocument document := by
  rw [ofLine, h]

theorem of_ofDocument (h : Document.ofLine line = .ok document) : Of line (ofDocument document) := by
  unfold ofDocument
  split
  next hresponse => exact .response h ((contains_iff document _).mp hresponse)
  next hresponse =>
    have hresponse : ¬ Has document "response" := fun hhas =>
      hresponse ((contains_iff document _).mpr hhas)
    split
    next hnotification =>
      have hnotification := (contains_iff document _).mp hnotification
      split
      next n hread => exact .notification h hresponse hnotification hread
      next kind hread => exact .unknownType h hresponse hnotification hread
      next error hother hread =>
        exact .unparseable h hresponse hnotification hread fun kind heq => hother kind heq
    next hnotification =>
      exact .unrecognised h hresponse fun hhas =>
        hnotification ((contains_iff document _).mpr hhas)

theorem of_ofLine (line : String) : Of line (ofLine line) := by
  unfold ofLine
  split
  next error h => exact .refused h
  next document h => exact of_ofDocument h

theorem Of.ofLine_eq {verdict : Verdict} (h : Of line verdict) : ofLine line = verdict := by
  cases h with
  | refused h => rw [ofLine, h]
  | response h hresponse =>
    rw [ofLine_of_document h, ofDocument, if_pos ((contains_iff _ _).mpr hresponse)]
  | notification h hresponse hnotification hread =>
    rw [ofLine_of_document h, ofDocument, if_neg (mt (contains_iff _ _).mp hresponse),
      if_pos ((contains_iff _ _).mpr hnotification), hread]
  | unparseable h hresponse hnotification hread herror =>
    rw [ofLine_of_document h, ofDocument, if_neg (mt (contains_iff _ _).mp hresponse),
      if_pos ((contains_iff _ _).mpr hnotification), hread]
    split
    next heq => cases heq
    next kind heq => exact absurd (Except.error.inj heq) (herror kind)
    next => rfl
  | unknownType h hresponse hnotification hread =>
    rw [ofLine_of_document h, ofDocument, if_neg (mt (contains_iff _ _).mp hresponse),
      if_pos ((contains_iff _ _).mpr hnotification), hread]
  | unrecognised h hresponse hnotification =>
    rw [ofLine_of_document h, ofDocument, if_neg (mt (contains_iff _ _).mp hresponse),
      if_neg (mt (contains_iff _ _).mp hnotification)]

/-- **Every line comes to exactly one thing.** -/
theorem of_iff (line : String) (verdict : Verdict) : Of line verdict ↔ ofLine line = verdict := by
  refine ⟨Of.ofLine_eq, ?_⟩
  rintro rfl
  exact of_ofLine line

/-- The routing of a document makes the calls of its verdict. -/
theorem calls_ofDocument {ν ρ : Type} (dispatcher : Dispatcher ν ρ) (document : Document) :
    dispatcher.calls (Routing.ofDocument document).1 =
      (ofDocument document).calls dispatcher.notificationListeners.listeners
        dispatcher.responseListeners.listeners := by
  unfold Routing.ofDocument ofDocument
  split
  · rfl
  split
  · cases Notification.ofDocument document with
    | ok n => rfl
    | error error => cases error <;> rfl
  · rfl

end Verdict

end CavityConsole

import CavityConsole.Proofs.Json.Numeral
import CavityConsole.Proofs.Notification.Meaning
import CavityConsole.Proofs.Time.Tokens

/-!
# Line breaks in the text of a notification

The text of a notification is made of words of its own, of numbers, truth values and times, and of
the strings of the server, which stand in it as they are. Only the last of these can hold a line
break, so a text has as many of them as its strings (`lineBreaks_text`).

The strings are members of the document that was decoded, under one of four names
(`strings_of_read`), so the document settles how many line breaks there are.
-/

namespace CavityConsole

/-- How many line breaks there are in a text. -/
def lineBreaks (text : String) : Nat := text.toList.count '\n'

@[simp]
theorem lineBreaks_append (a b : String) : lineBreaks (a ++ b) = lineBreaks a + lineBreaks b := by
  rw [lineBreaks, String.toList_append, List.count_append]
  rfl

theorem lineBreaks_eq_zero {text : String} : lineBreaks text = 0 ↔ '\n' ∉ text.toList :=
  List.count_eq_zero

theorem lineBreaks_of_plain {cs : List Char} (h : Json.Plain cs) :
    lineBreaks (String.ofList cs) = 0 := by
  rw [lineBreaks_eq_zero, String.toList_ofList]
  intro hmem
  exact absurd (h '\n' hmem) (by decide)

/-! ## What cannot hold a line break -/

namespace Timestamp

open Json

theorem plain_padded (width n : Nat) : Plain (padded width n) :=
  plain_digits fun _ => isDigit_of_mem_padded width

theorem plain_fractionDigits (width n : Nat) : Plain (Duration.fractionDigits width n) := by
  obtain ⟨zeros, hzeros⟩ := fractionDigits_append width n
  have hpadded := plain_padded width n
  rw [hzeros] at hpadded
  exact fun c hc => hpadded c (List.mem_append_left _ hc)

theorem plain_dateText (date : Date) : Plain (dateText date) := by
  have hsign : Plain (if date.year < 0 then ['-'] else []) := by
    split
    · exact plain_of_all rfl
    · exact plain_nil
  exact ((hsign.append (plain_padded _ _)).append (.cons (by decide) (plain_padded _ _))).append
    (.cons (by decide) (plain_padded _ _))

theorem plain_timeText (time : TimeOfDay) : Plain (timeText time) := by
  have hfraction : Plain (if time.nanosecond = 0 then []
      else '.' :: Duration.fractionDigits 9 time.nanosecond) := by
    split
    · exact plain_nil
    · exact .cons (by decide) (plain_fractionDigits _ _)
  exact (((plain_padded _ _).append (.cons (by decide) (plain_padded _ _))).append
    (.cons (by decide) (plain_padded _ _))).append hfraction

theorem plain_zoneText (offset : ZoneOffset) : Plain (zoneText offset) := by
  unfold zoneText
  split
  · exact plain_of_all rfl
  · refine .cons ?_ ((plain_padded _ _).append (.cons (by decide) (plain_padded _ _)))
    split <;> decide

theorem lineBreaks_text (t : Timestamp) : lineBreaks t.text = 0 := by
  unfold text text?
  split
  · rfl
  · refine lineBreaks_of_plain (((plain_dateText _).append (.cons (by decide)
      (plain_timeText _))).append ?_)
    cases t.offset with
    | none => exact plain_nil
    | some offset => exact plain_zoneText offset

end Timestamp

namespace Notification

theorem join_integerPieces (i : Int) :
    String.join (integerPieces i) = String.ofList (Decimal.integerText i) := by
  unfold integerPieces Decimal.integerText
  split <;> simp

theorem lineBreaks_integerPieces (i : Int) : lineBreaks (String.join (integerPieces i)) = 0 := by
  rw [join_integerPieces]
  exact lineBreaks_of_plain (Json.plain_integerText i)

theorem lineBreaks_booleanText (b : Bool) : lineBreaks (booleanText b) = 0 := by
  cases b <;> rfl

theorem lineBreaks_dash : lineBreaks "-" = 0 := by decide +kernel

theorem lineBreaks_fieldPieces {α : Type} {pieces : α → List String}
    (h : ∀ a, lineBreaks (String.join (pieces a)) = 0) (field : Option α) :
    lineBreaks (String.join (fieldPieces pieces field)) = 0 := by
  cases field with
  | none => exact lineBreaks_dash
  | some a => exact h a

/-- A string of the server stands in the text as it is. -/
theorem lineBreaks_string (field : Option String) :
    lineBreaks (String.join (fieldPieces (fun s => [s]) field)) =
      (field.toList.map lineBreaks).sum := by
  cases field with
  | none => exact lineBreaks_dash
  | some s => simp [fieldPieces]

/-! ## The strings of a notification -/

/-- The string that a member holds. -/
def Held.string? : Held → Option String
  | .text s => some s
  | _ => none

/-- The strings of the server that stand in the text of a notification. -/
def strings (n : Notification) : List String := n.fields.filterMap fun entry =>
  entry.2.bind Held.string?

theorem string?_text (field : Option String) : (field.map Held.text).bind Held.string? = field := by
  cases field <;> rfl

theorem string?_flag (field : Option Bool) : (field.map Held.flag).bind Held.string? = none := by
  cases field <;> rfl

theorem string?_time (field : Option Timestamp) :
    (field.map Held.time).bind Held.string? = none := by
  cases field <;> rfl

theorem string?_whole {α : Type} (field : Option α) (toInt : α → Int) :
    (field.map fun i => Held.whole (toInt i)).bind Held.string? = none := by
  cases field <;> rfl

theorem lineBreaks_int32 (field : Option Int32) :
    lineBreaks (String.join (fieldPieces (fun i => integerPieces i.toInt) field)) = 0 :=
  lineBreaks_fieldPieces (fun i : Int32 => lineBreaks_integerPieces i.toInt) field

theorem lineBreaks_int64 (field : Option Int64) :
    lineBreaks (String.join (fieldPieces (fun i => integerPieces i.toInt) field)) = 0 :=
  lineBreaks_fieldPieces (fun i : Int64 => lineBreaks_integerPieces i.toInt) field

theorem lineBreaks_flag (field : Option Bool) :
    lineBreaks (String.join (fieldPieces (fun b => [booleanText b]) field)) = 0 :=
  lineBreaks_fieldPieces lineBreaks_booleanText field

theorem lineBreaks_time (field : Option Timestamp) :
    lineBreaks (String.join (fieldPieces (fun t => [t.text]) field)) = 0 :=
  lineBreaks_fieldPieces Timestamp.lineBreaks_text field

theorem lineBreaks_reportPieces (report : JobReport) :
    lineBreaks (String.join (reportPieces report)) =
      (report.cavity.toList.map lineBreaks).sum + (report.label.toList.map lineBreaks).sum := by
  have hfirst : lineBreaks "job id=" = 0 ∧ lineBreaks " start=" = 0 ∧
      lineBreaks " paused=" = 0 ∧ lineBreaks " loop=" = 0 := by decide +kernel
  have hlast : lineBreaks " cavity=" = 0 ∧ lineBreaks " cavity-start=" = 0 ∧
      lineBreaks " progress=" = 0 ∧ lineBreaks " label=" = 0 ∧
      lineBreaks " cavities=" = 0 := by decide +kernel
  unfold reportPieces
  simp only [String.join_append, String.join_cons, String.join_nil, String.append_empty,
    lineBreaks_append, hfirst, hlast, lineBreaks_int32, lineBreaks_int64, lineBreaks_flag,
    lineBreaks_time, lineBreaks_string, lineBreaks_integerPieces, Nat.zero_add, Nat.add_zero]

theorem strings_status (message : Option String) (error : Option Bool) :
    strings (.status message error) = message.toList := by
  cases message <;> cases error <;> rfl

theorem strings_paused (state : Option Bool) : strings (.paused state) = [] := by
  cases state <;> rfl

theorem strings_loop (count : Option Int32) : strings (.loop count) = [] := by
  cases count <;> rfl

theorem strings_cavity (name : Option String) (start : Option Timestamp) :
    strings (.cavity name start) = name.toList := by
  cases name <;> cases start <;> rfl

theorem strings_progress (value : Option Int32) (label : Option String) :
    strings (.progress value label) = label.toList := by
  cases value <;> cases label <;> rfl

theorem strings_report (report : JobReport) :
    strings (.job (some report)) = report.cavity.toList ++ report.label.toList := by
  simp only [strings, fields, JobReport.said, Option.bind_some, List.filterMap_cons,
    List.filterMap_nil, string?_text, string?_flag, string?_time, string?_whole, Option.map_some,
    Held.string?]
  cases report.cavity <;> cases report.label <;> rfl

/-- **A text has the line breaks of its strings** and no others. -/
theorem lineBreaks_text (n : Notification) :
    lineBreaks n.text = (n.strings.map lineBreaks).sum := by
  unfold text pieces
  cases n with
  | status message error =>
    have hwords : lineBreaks "status message=" = 0 ∧ lineBreaks " error=" = 0 := by decide +kernel
    simp [strings_status, hwords, lineBreaks_flag, lineBreaks_string]
  | paused state =>
    have hword : lineBreaks "paused " = 0 := by decide +kernel
    simp [strings_paused, hword, lineBreaks_flag]
  | loop count =>
    have hword : lineBreaks "loop " = 0 := by decide +kernel
    simp [strings_loop, hword, lineBreaks_int32]
  | cavity name start =>
    have hwords : lineBreaks "cavity name=" = 0 ∧ lineBreaks " start=" = 0 := by decide +kernel
    simp [strings_cavity, hwords, lineBreaks_time, lineBreaks_string]
  | progress value label =>
    have hwords : lineBreaks "progress value=" = 0 ∧ lineBreaks " label=" = 0 := by decide +kernel
    simp [strings_progress, hwords, lineBreaks_int32, lineBreaks_string]
  | job report =>
    cases report with
    | none =>
      have hword : lineBreaks "job none" = 0 := by decide +kernel
      exact hword
    | some report =>
      rw [strings_report, List.map_append, List.sum_append]
      exact lineBreaks_reportPieces report

/-! ## The strings of a document -/

/-- The members whose strings stand in a text. -/
def wordMembers : List String := ["message", "name", "cavity", "label"]

/-- The strings of a document that stand in the text of its notification: those of the members that
have a part in decoding it, under one of the four names. -/
def shownStrings (document : Document) : List String := (consulted document).filterMap fun name =>
  if name ∈ wordMembers then (Members.get? document name).bind Json.string? else none

/-- A member is a string exactly under one of the four names. -/
theorem wordMembers_iff {kind : String} {members : List Member}
    (hkind : membersOf kind = some members) :
    ∀ member ∈ members, member.name ∈ wordMembers ↔ member.type = .text := by
  unfold membersOf at hkind
  split at hkind
  next => cases hkind; simp [wordMembers]
  next => cases hkind; simp [wordMembers]
  next => cases hkind; simp [wordMembers]
  next => cases hkind; simp [wordMembers]
  next => cases hkind; simp [wordMembers]
  next => cases hkind; simp [wordMembers]
  next => cases hkind

theorem Holds.string?_of_text {value : Json} {held : Held} (h : Holds .text value held) :
    held.string? = value.string? := by
  cases h
  rfl

theorem Holds.string?_of_other {type : MemberType} {value : Json} {held : Held}
    (h : Holds type value held) (htype : type ≠ .text) : held.string? = none := by
  cases h with
  | text s => exact absurd rfl htype
  | _ => rfl

/-- What a field shows of a member is the string of the member, under one of the four names. -/
theorem ShownAs.string? {document : Document} {member : Member} {entry : String × Option Held}
    (h : ShownAs document member entry) (hword : member.name ∈ wordMembers ↔ member.type = .text) :
    entry.2.bind Held.string? =
      if member.name ∈ wordMembers then (Members.get? document member.name).bind Json.string?
      else none := by
  cases h with
  | unset hlacks => rcases hlacks with h | h <;> rw [h] <;> exact (ite_self _).symm
  | held hset hheld =>
    rw [hset]
    split
    next hname => exact Holds.string?_of_text (hword.mp hname ▸ hheld)
    next hname => exact hheld.string?_of_other fun htype => hname (hword.mpr htype)

theorem strings_of_shown {document : Document} {members : List Member}
    {shown : List (String × Option Held)}
    (hword : ∀ member ∈ members, member.name ∈ wordMembers ↔ member.type = .text)
    (h : List.Forall₂ (ShownAs document) members shown) :
    shown.filterMap (fun entry => entry.2.bind Held.string?) =
      (members.map (·.name)).filterMap fun name =>
        if name ∈ wordMembers then (Members.get? document name).bind Json.string? else none := by
  induction h with
  | nil => rfl
  | cons hentry _ ih =>
    obtain ⟨hfirst, hrest⟩ := List.forall_mem_cons.mp hword
    rw [List.map_cons, List.filterMap_cons, List.filterMap_cons, hentry.string? hfirst, ih hrest]

/-- **The strings of a notification are strings of its document.** -/
theorem strings_of_read {document : Document} {n : Notification}
    (h : ofDocument document = .ok n) : n.strings = shownStrings document := by
  have hmeans := means_ofDocument document
  rw [h] at hmeans
  have hfirst : "notification" ∉ wordMembers := by decide
  cases hmeans with
  | idle hkind hjob =>
    have hlast : "job" ∉ wordMembers := by decide
    rw [shownStrings, consulted_of_idle hkind hjob]
    simp [hfirst, hlast, strings, idle, fields, JobReport.said]
  | read hkind hmembers hjob _ hfields =>
    rw [shownStrings, consulted_of_kind hkind hmembers hjob, List.filterMap_cons, if_neg hfirst]
    exact strings_of_shown (wordMembers_iff hmembers) hfields

end Notification

end CavityConsole

import CavityConsole.Proofs.CommandLine.Watching
import CavityConsole.Proofs.Notification.Text
import Mathlib.Algebra.BigOperators.Group.List.Basic
import Mathlib.Algebra.Group.Action.Defs
import Mathlib.Algebra.Order.BigOperators.Group.List

/-!
# One line for each notification

Watching ends every notification with a line break and escapes nothing, so a line break inside a
notification ends a line as well.

Only a string of the server can bring one: `shownOn` are the strings of a line that stand in what
the listeners are told of it. **The law** (`printed_lines`): what is printed has a line for each
notification and one more for each line break of these strings. It is one line for each notification
exactly when none of the strings has a line break, and then the lines are the texts of the
notifications.

A string with line breaks prints what several notifications print (`printed_forged`).
-/

namespace CavityConsole

/-- The strings of a line that stand in what the listeners are told of it. -/
def shownOn (line : String) : List String :=
  match Document.ofLine line, Verdict.ofLine line with
  | .ok document, .notification _ => Notification.shownStrings document
  | _, _ => []

/-- How many line breaks there are in them. -/
def lineBreaksOn (line : String) : Nat := ((shownOn line).map lineBreaks).sum

theorem lineBreaksOn_eq_zero {line : String} :
    lineBreaksOn line = 0 ↔ ∀ s ∈ shownOn line, '\n' ∉ s.toList := by
  rw [lineBreaksOn, List.sum_eq_zero_iff, List.forall_mem_map]
  exact forall₂_congr fun s _ => lineBreaks_eq_zero

/-- **The line breaks of what is told** are those of the strings of the line. -/
theorem lineBreaks_told {line : String} {n : Notification}
    (h : (Verdict.ofLine line).told = some n) : lineBreaks n.text = lineBreaksOn line := by
  have hof := Verdict.of_ofLine line
  unfold lineBreaksOn shownOn
  generalize Verdict.ofLine line = verdict at h hof
  cases hof with
  | refused _ => cases h
  | response _ _ => cases h
  | notification hdocument _ _ hread =>
    cases h
    rw [hdocument]
    dsimp only
    rw [Notification.lineBreaks_text, Notification.strings_of_read hread]
  | unparseable hdocument _ _ _ _ =>
    cases h
    have hown : lineBreaks (Notification.errorStatus unparseableMessage).text = 0 := by
      decide +kernel
    rw [hdocument]
    exact hown
  | unknownType _ _ _ _ => cases h
  | unrecognised hdocument _ _ =>
    cases h
    have hown : lineBreaks (Notification.errorStatus unrecognisedMessage).text = 0 := by
      decide +kernel
    rw [hdocument]
    exact hown

/-- Nothing of a line is shown to listeners that are told nothing. -/
theorem lineBreaksOn_of_silent {line : String} (h : (Verdict.ofLine line).told = none) :
    lineBreaksOn line = 0 := by
  unfold lineBreaksOn shownOn
  split
  next hverdict => rw [hverdict] at h; cases h
  next => rfl

theorem sum_lineBreaks (lines : List String) :
    ((notificationsOf lines).map fun n => lineBreaks n.text).sum =
      (lines.map lineBreaksOn).sum := by
  induction lines with
  | nil => rfl
  | cons line lines ih =>
    rw [notificationsOf] at ih
    rw [notificationsOf, List.map_cons, List.sum_cons, ← ih]
    cases htold : (Verdict.ofLine line).told with
    | none =>
      simp only [List.filterMap_cons, htold]
      rw [lineBreaksOn_of_silent htold, Nat.zero_add]
    | some n =>
      simp only [List.filterMap_cons, htold]
      rw [List.map_cons, List.sum_cons, lineBreaks_told htold]

/-! ## The lines of a text -/

/-- A text has one line more than line breaks. -/
theorem length_splitOn (cs : List Char) : (cs.splitOn '\n').length = cs.count '\n' + 1 := by
  induction cs with
  | nil => rfl
  | cons c cs ih =>
    rw [List.splitOn_cons_eq_if_modifyHead, List.count_cons]
    split
    · rw [List.length_cons, ih]
    · rw [List.length_modifyHead, ih]

theorem notificationLines_cons (n : Notification) (ns : List Notification) :
    (notificationLines (n :: ns)).toList =
      n.text.toList ++ '\n' :: (notificationLines ns).toList := by
  rw [notificationLines, List.map_cons, String.join_cons, String.toList_append,
    String.toList_append, List.append_assoc]
  rfl

/-- The lines of what is printed: those of each text, and nothing behind the last line break. -/
theorem splitOn_notificationLines (ns : List Notification) :
    (notificationLines ns).toList.splitOn '\n' =
      ns.flatMap (fun n => n.text.toList.splitOn '\n') ++ [[]] := by
  induction ns with
  | nil => rfl
  | cons n ns ih =>
    rw [notificationLines_cons, List.splitOn_append_cons_self, ih, List.flatMap_cons,
      List.append_assoc]

/-- What is printed of notifications. -/
theorem printed_eq (ns : List Notification) :
    (Output.write {} (notificationPieces ns)).1.text = notificationLines ns := by
  rw [Output.write_unlimited rfl, Output.text_add, join_notificationPieces]
  exact String.empty_append

/-- There are as many lines as notifications and line breaks in them, and the end. -/
theorem length_notificationLines (ns : List Notification) :
    ((notificationLines ns).toList.splitOn '\n').length =
      ns.length + (ns.map fun n => lineBreaks n.text).sum + 1 := by
  rw [splitOn_notificationLines, List.length_append, List.length_flatMap]
  have hlength : (fun n : Notification => (n.text.toList.splitOn '\n').length) =
      fun n => lineBreaks n.text + 1 := funext fun n => length_splitOn _
  rw [hlength, List.sum_map_add, List.map_const', List.sum_replicate, smul_eq_mul, mul_one,
    List.length_singleton]
  omega

/-- The lines are the texts when no text has a line break. -/
theorem splitOn_eq_texts {ns : List Notification} (h : ∀ n ∈ ns, lineBreaks n.text = 0) :
    (notificationLines ns).toList.splitOn '\n' = ns.map (·.text.toList) ++ [[]] := by
  have hone : ∀ n ∈ ns, n.text.toList.splitOn '\n' = [n.text.toList] := fun n hn =>
    List.splitOn_eq_singleton (lineBreaks_eq_zero.mp (h n hn))
  rw [splitOn_notificationLines, List.flatMap_congr hone, List.map_eq_flatMap]

/-- **The lines that watching prints**, for any lines of the server. There is one for each
notification and one more for each line break in the strings of the server; they are the texts of
the notifications exactly when no string has one; and the text of a notification has one exactly
when a string of its line has. -/
theorem printed_lines (lines : List String) :
    let printed := (Output.write {} (notificationPieces (notificationsOf lines))).1.text
    (printed.toList.splitOn '\n').length =
        (notificationsOf lines).length + (lines.map lineBreaksOn).sum + 1 ∧
      (printed.toList.splitOn '\n' = (notificationsOf lines).map (·.text.toList) ++ [[]] ↔
        ∀ line ∈ lines, ∀ s ∈ shownOn line, '\n' ∉ s.toList) ∧
      ∀ line n, (Verdict.ofLine line).told = some n →
        ('\n' ∈ n.text.toList ↔ ∃ s ∈ shownOn line, '\n' ∈ s.toList) := by
  dsimp only
  rw [printed_eq]
  have hlength := length_notificationLines (notificationsOf lines)
  rw [sum_lineBreaks] at hlength
  refine ⟨hlength, ⟨fun hsplit => ?_, fun hclean => ?_⟩, fun line n htold => ?_⟩
  · -- as many lines as notifications leave no room for a line break
    rw [hsplit, List.length_append, List.length_map, List.length_singleton] at hlength
    have hnone : (lines.map lineBreaksOn).sum = 0 := by omega
    rw [List.sum_eq_zero_iff, List.forall_mem_map] at hnone
    exact fun line hline => lineBreaksOn_eq_zero.mp (hnone line hline)
  · refine splitOn_eq_texts fun n hn => ?_
    obtain ⟨line, hline, htold⟩ := List.mem_filterMap.mp hn
    rw [lineBreaks_told htold]
    exact lineBreaksOn_eq_zero.mpr (hclean line hline)
  · have hiff : lineBreaks n.text ≠ 0 ↔ ¬ '\n' ∉ n.text.toList := not_congr lineBreaks_eq_zero
    rw [lineBreaks_told htold, Ne, lineBreaksOn_eq_zero] at hiff
    push Not at hiff
    exact hiff.symm

/-- A status whose message has a backslash and a letter n for each line break. -/
def statusLine : String :=
  "\x7b\"message\":\"a\\\\nb\",\"notification\":\"status\"\x7d"

theorem ofLine_statusLine :
    Document.ofLine statusLine =
      .ok [("message", .string "a\\nb"), ("notification", .string "status")] := by
  cbv

theorem printed_lines_escaped :
    (Verdict.ofLine statusLine).told = some (.status (some "a\\nb") none) ∧
      shownOn statusLine = ["a\\nb"] ∧
      '\n' ∉ (Notification.status (some "a\\nb") none).text.toList ∧
      (Output.write {} (notificationPieces [.status (some "a\\nb") none])).1.text.toList.splitOn
          '\n' = [(Notification.status (some "a\\nb") none).text.toList, []] := by
  have hverdict : Verdict.ofLine statusLine = .notification (.status (some "a\\nb") none) := by
    rw [Verdict.ofLine_of_document ofLine_statusLine]
    rfl
  have htold : (Verdict.ofLine statusLine).told = some (.status (some "a\\nb") none) := by
    rw [hverdict]
    rfl
  have hshown : shownOn statusLine = ["a\\nb"] := by
    rw [shownOn, ofLine_statusLine, hverdict]
    rfl
  have hclean : ∀ s ∈ shownOn statusLine, '\n' ∉ s.toList := by
    rw [hshown]
    decide +kernel
  obtain ⟨-, hlines, htext⟩ := printed_lines [statusLine]
  rw [notificationsOf_singleton, htold] at hlines
  refine ⟨htold, hshown, fun hbreak => ?_, hlines.mpr fun line hline => ?_⟩
  · obtain ⟨s, hs, hmem⟩ := (htext _ _ htold).mp hbreak
    exact hclean s hs hmem
  · rw [List.mem_singleton.mp hline]
    exact hclean

/-- A status in whose message the texts of two more notifications stand behind line breaks. -/
def forgedLine : String :=
  "\x7b\"message\":\"x error=-\\npaused true\\nstatus message=y\",\"notification\":\"status\"\x7d"

/-- One status is told, and what is printed is what three notifications print. -/
theorem printed_forged :
    notificationsOf [forgedLine] =
        [.status (some "x error=-\npaused true\nstatus message=y") none] ∧
      (Output.write {} (notificationPieces (notificationsOf [forgedLine]))).1.text =
        (Output.write {} (notificationPieces
          [.status (some "x") none, .paused (some true), .status (some "y") none])).1.text := by
  have hdocument : Document.ofLine forgedLine =
      .ok [("message", .string "x error=-\npaused true\nstatus message=y"),
        ("notification", .string "status")] := by cbv
  have htold : notificationsOf [forgedLine] =
      [.status (some "x error=-\npaused true\nstatus message=y") none] := by
    rw [notificationsOf_singleton, Verdict.ofLine_of_document hdocument]
    rfl
  refine ⟨htold, ?_⟩
  rw [htold, printed_eq, printed_eq]
  decide +kernel

end CavityConsole

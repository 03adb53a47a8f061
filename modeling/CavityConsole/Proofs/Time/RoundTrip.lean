import CavityConsole.Proofs.Time.Tokens

/-!
# Times are read back as they are written

Reading forgets how a time was spelled: the case of a `z`, a sign in front of a year, zeros at the
end of a fraction and what stands behind its ninth digit, a leap second. What is left is written in
one way, and that way is read as the same time again.

**The law** (`text_reads_back`): the text of a time that was read is there, and is read as that
time; so no two times that were read have one text.

Which years can be written depends on the form (`Writable`), and only times with such years are read
(`writable_of_parse`). A time without an offset is not taken for one with an offset, because its
text ends where a zone is due (`ofZonedText?_local`).
-/

namespace CavityConsole

theorem Date.ofNumbers?_self (date : Date) :
    Date.ofNumbers? date.year date.month date.day = some date := by
  rw [Date.ofNumbers?, dif_pos date.month_range, dif_pos date.day_range]

theorem Date.ofNumbers?_eq_some_iff {year : Int} {month day : Nat} {date : Date} :
    ofNumbers? year month day = some date ↔
      date.year = year ∧ date.month = month ∧ date.day = day := by
  refine ⟨fun h => ?_, ?_⟩
  · unfold ofNumbers? at h
    split at h
    · split at h <;> cases h
      exact ⟨rfl, rfl, rfl⟩
    · cases h
  · rintro ⟨rfl, rfl, rfl⟩
    exact ofNumbers?_self date

theorem Date.day_lt (date : Date) : date.day < 32 := by
  have hday := date.day_range.2
  unfold Calendar.monthLength at hday
  split at hday <;> try omega
  split at hday <;> omega

theorem TimeOfDay.ofNumbers?_self (time : TimeOfDay) :
    TimeOfDay.ofNumbers? time.hour time.minute time.second time.nanosecond = some time := by
  rw [TimeOfDay.ofNumbers?,
    dif_pos ⟨time.hour_lt, time.minute_lt, time.second_lt, time.nanosecond_lt⟩]

namespace Timestamp

/-! ## Dates and times of day -/

theorem monthAndDay_text (date : Date) (rest : List Char) :
    monthAndDay ('-' :: (padded 2 date.month ++ '-' :: (padded 2 date.day ++ rest))) =
      some ((date.month, date.day), rest) := by
  have hmonth := date.month_range.2
  have hday := date.day_lt
  simp [monthAndDay, mark_cons, number_padded 2 (n := date.month) (by decide) (by omega),
    number_padded 2 (n := date.day) (by decide) (by omega)]

/-- The clock reading of a time of day. -/
def Reading.ofTime (time : TimeOfDay) : Reading :=
  ⟨time.hour, time.minute, time.second, time.nanosecond⟩

theorem Reading.time?_ofTime (time : TimeOfDay) : (Reading.ofTime time).time? = some time :=
  TimeOfDay.ofNumbers?_self time

theorem timeText_append (time : TimeOfDay) (rest : List Char) :
    timeText time ++ rest =
      padded 2 time.hour ++ ':' :: (padded 2 time.minute ++ ':' ::
        (padded 2 time.second ++ (fractionText time.nanosecond ++ rest))) := by
  simp [timeText, fractionText]

/-- A time of day that is written is read, where nine digits of a fraction are allowed. -/
theorem reading_timeText (time : TimeOfDay) (most : Option Nat) (hmost : ∀ m ∈ most, 9 ≤ m)
    {rest : List Char} (hrest : Unfractioned rest) :
    reading most (timeText time ++ rest) = some (Reading.ofTime time, rest) := by
  have hhour := time.hour_lt
  have hminute := time.minute_lt
  have hsecond := time.second_lt
  rw [timeText_append]
  simp [reading, mark_cons, number_padded 2 (n := time.hour) (by decide) (by omega),
    number_padded 2 (n := time.minute) (by decide) (by omega),
    number_padded 2 (n := time.second) (by decide) (by omega),
    fraction_fractionText time.nanosecond_lt hmost hrest, Reading.ofTime]

/-- A date behind its sign. -/
def unsignedDateText (date : Date) (rest : List Char) : List Char :=
  padded 4 date.year.natAbs ++
    '-' :: (padded 2 date.month ++ '-' :: (padded 2 date.day ++ rest))

theorem dateText_append (date : Date) (rest : List Char) :
    dateText date ++ rest =
      if date.year < 0 then '-' :: unsignedDateText date rest else unsignedDateText date rest := by
  unfold dateText unsignedDateText
  split <;> simp

/-- A number of positive width starts with a digit. -/
theorem padded_eq_cons (width n : Nat) :
    ∃ c more, padded width n = c :: more ∧ c.isDigit = true := by
  cases h : padded width n with
  | nil =>
    have hdigits : Decimal.digitText n = [] := (List.append_eq_nil_iff.mp h).2
    exact absurd hdigits Nat.toDigits_ne_nil
  | cons c more => exact ⟨c, more, rfl, isDigit_of_mem_padded width (h ▸ List.mem_cons_self)⟩

/-! ## The two forms -/

/-- A time with a year that its form can write. -/
def Writable (t : Timestamp) : Prop :=
  match t.offset with
  | some _ => 0 ≤ t.date.year ∧ t.date.year ≤ 9999
  | none => t.date.year.natAbs ≤ 9999

/-- The characters of a time. -/
def chars (t : Timestamp) : List Char :=
  dateText t.date ++ 'T' :: timeText t.time ++ (t.offset.map zoneText).getD []

theorem text?_of_writable {t : Timestamp} (h : t.Writable) :
    t.text? = some (String.ofList t.chars) := by
  refine if_neg ?_
  rintro ⟨hoffset, hyear⟩
  unfold Writable at h
  cases htoffset : t.offset with
  | none =>
    rw [htoffset] at hoffset
    cases hoffset
  | some offset =>
    rw [htoffset] at h
    dsimp only at h
    omega

theorem chars_eq (t : Timestamp) :
    t.chars = dateText t.date ++ 'T' :: (timeText t.time ++ (t.offset.map zoneText).getD []) := by
  simp [chars]

/-- The text of a zone cannot go on a fraction. -/
theorem unfractioned_zoneText (offset : Option ZoneOffset) :
    Unfractioned ((offset.map zoneText).getD []) := by
  intro c hc
  cases offset with
  | none => cases hc
  | some offset =>
    dsimp only [Option.map_some, Option.getD_some, zoneText] at hc
    split at hc
    · cases hc; decide
    · split at hc <;> cases hc <;> decide

/-- **A time with an offset is read back from its text.** -/
theorem ofZonedText?_chars {t : Timestamp} {offset : ZoneOffset} (h : t.Writable)
    (hoffset : t.offset = some offset) : ofZonedText? t.chars = some t := by
  obtain ⟨date, time, toffset⟩ := t
  cases hoffset
  have hyear : 0 ≤ date.year ∧ date.year ≤ 9999 := h
  have hsecond : ¬ (Reading.ofTime time).second = 60 := Nat.ne_of_lt time.second_lt
  have hnatAbs : (date.year.natAbs : Int) = date.year := Int.natAbs_of_nonneg hyear.1
  have hclock := reading_timeText time none (by simp) (unfractioned_zoneText (some offset))
  dsimp only [Option.map_some, Option.getD_some] at hclock
  rw [chars_eq]
  dsimp only [Option.map_some, Option.getD_some]
  rw [dateText_append, if_neg (Int.not_lt.mpr hyear.1), unsignedDateText]
  simp [ofZonedText?, number_padded 4 (n := date.year.natAbs) (by decide) (by omega),
    monthAndDay_text, hnatAbs, Date.ofNumbers?_self, hclock, zone_zoneText, hsecond,
    Reading.time?_ofTime]

theorem number_of_mark {c : Char} (h : c.isDigit = false) (width : Nat) (rest : List Char) :
    number (width + 1) (c :: rest) = none := by
  rw [number, List.take_succ_cons, if_neg]
  rintro ⟨-, hdigits⟩
  rw [List.all_cons, h] at hdigits
  cases hdigits

/-- **A time without an offset is not read as one with an offset**: its text ends where a zone is
due. -/
theorem ofZonedText?_local {t : Timestamp} (h : t.Writable) (hoffset : t.offset = none) :
    ofZonedText? t.chars = none := by
  obtain ⟨date, time, toffset⟩ := t
  cases hoffset
  have hyear : date.year.natAbs ≤ 9999 := h
  have hclock := reading_timeText time none (by simp) (unfractioned_zoneText none)
  rw [Option.map_none, Option.getD_none, List.append_nil] at hclock
  rw [chars_eq, dateText_append]
  dsimp only [Option.map_none, Option.getD_none]
  split
  next hnegative => simp [ofZonedText?, number_of_mark (c := '-') rfl]
  next hnegative =>
    have hnatAbs : (date.year.natAbs : Int) = date.year := Int.natAbs_of_nonneg (by omega)
    rw [unsignedDateText]
    simp [ofZonedText?, number_padded 4 (n := date.year.natAbs) (by decide) (by omega),
      monthAndDay_text, hnatAbs, Date.ofNumbers?_self, hclock, zone]

/-- **A time without an offset is read back from its text.** -/
theorem ofLocalText?_chars {t : Timestamp} (h : t.Writable) (hoffset : t.offset = none) :
    ofLocalText? t.chars = some t := by
  obtain ⟨date, time, toffset⟩ := t
  cases hoffset
  have hyear : date.year.natAbs ≤ 9999 := h
  have hclock := reading_timeText time (some 32) (by simp) (unfractioned_zoneText none)
  rw [Option.map_none, Option.getD_none, List.append_nil] at hclock
  have hnumber := number_padded 4 (n := date.year.natAbs) (by decide) (by omega)
  rw [chars_eq, dateText_append]
  dsimp only [Option.map_none, Option.getD_none]
  split
  next hnegative =>
    have hnatAbs : -(date.year.natAbs : Int) = date.year := by omega
    rw [unsignedDateText]
    generalize date.year.natAbs = year at hnumber hnatAbs ⊢
    simp [ofLocalText?, hnumber, monthAndDay_text, hnatAbs, Date.ofNumbers?_self, hclock, mark_cons,
      Reading.time?_ofTime]
  next hnegative =>
    have hnatAbs : (date.year.natAbs : Int) = date.year := Int.natAbs_of_nonneg (by omega)
    -- the year starts with a digit, so no sign is taken off
    obtain ⟨c, more, hpadded, hc⟩ := padded_eq_cons 4 date.year.natAbs
    have hminus : c ≠ '-' := by
      rintro rfl
      cases hc
    have hplus : c ≠ '+' := by
      rintro rfl
      cases hc
    rw [hpadded] at hnumber
    simp only [List.cons_append] at hnumber
    rw [unsignedDateText, hpadded, List.cons_append]
    simp [ofLocalText?, hminus, hplus, hnumber, monthAndDay_text, hnatAbs, Date.ofNumbers?_self,
      hclock, mark_cons, Reading.time?_ofTime]

/-! ## Times that were read -/

theorem writable_of_zoned {cs : List Char} {t : Timestamp} (h : ofZonedText? cs = some t) :
    t.Writable := by
  simp only [ofZonedText?, Option.bind_eq_bind, Option.bind_eq_some_iff, Prod.exists] at h
  obtain ⟨year, cs, hyear, month, day, cs, -, date, hdate, h⟩ := h
  have hlt := lt_of_number hyear
  have heq := (Date.ofNumbers?_eq_some_iff.mp hdate).1
  have hrange : 0 ≤ date.year ∧ date.year ≤ 9999 := by omega
  split at h
  · cases h
  · split at h
    · cases h
    · simp only [Option.bind_eq_some_iff, Prod.exists] at h
      obtain ⟨r, cs, -, offset, -, h⟩ := h
      split at h
      · obtain ⟨time, -, h⟩ := Option.bind_eq_some_iff.mp h
        split at h <;> cases h
        exact hrange
      · obtain ⟨time, -, h⟩ := Option.bind_eq_some_iff.mp h
        cases h
        exact hrange

theorem writable_of_local {cs : List Char} {t : Timestamp} (h : ofLocalText? cs = some t) :
    t.offset = none ∧ t.Writable := by
  unfold ofLocalText? at h
  split at h
  rename_i negative cs _
  simp only [Option.bind_eq_bind, Option.bind_eq_some_iff, Prod.exists] at h
  obtain ⟨year, cs, hyear, month, day, cs, -, date, hdate, clock, -, r, cs, -, h⟩ := h
  have hlt := lt_of_number hyear
  have heq := (Date.ofNumbers?_eq_some_iff.mp hdate).1
  have hrange : date.year.natAbs ≤ 9999 := by
    rw [heq]
    split <;> omega
  split at h
  · cases h
  · obtain ⟨time, -, h⟩ := Option.bind_eq_some_iff.mp h
    cases h
    exact ⟨rfl, hrange⟩

/-- **Only times that can be written are read.** -/
theorem writable_of_parse {text : String} {t : Timestamp} (h : parse? text = some t) :
    t.Writable := by
  unfold parse? at h
  rcases Option.or_eq_some_iff.mp h with hzoned | ⟨-, hlocal⟩
  · exact writable_of_zoned hzoned
  · exact (writable_of_local hlocal).2

/-- **A time that can be written is read back from its text.** -/
theorem parse?_chars {t : Timestamp} (h : t.Writable) :
    parse? (String.ofList t.chars) = some t := by
  rw [parse?, String.toList_ofList]
  cases hoffset : t.offset with
  | some offset => rw [ofZonedText?_chars h hoffset, Option.some_or]
  | none => rw [ofZonedText?_local h hoffset, ofLocalText?_chars h hoffset, Option.none_or]

/-- **Times that were read can be written and are read back.** A time that is the reading of any
text has a text of its own; that text is read as the same date, time of day and offset; and two such
times with one text are one time. -/
theorem text_reads_back :
    (∀ (source : String) (t : Timestamp), parse? source = some t →
      t.text? = some (toString t) ∧ parse? (toString t) = some t) ∧
    (∀ (source other : String) (t u : Timestamp), parse? source = some t → parse? other = some u →
      toString t = toString u → t = u) := by
  have shown : ∀ {source : String} {t : Timestamp}, parse? source = some t →
      t.text? = some (toString t) ∧ parse? (toString t) = some t := by
    intro source t h
    have writable := writable_of_parse h
    have text := text?_of_writable writable
    have same : toString t = String.ofList t.chars := by
      show t.text?.getD "" = _
      rw [text, Option.getD_some]
    rw [same]
    exact ⟨text, parse?_chars writable⟩
  refine ⟨fun _ _ => shown, fun _ _ t u ht hu heq => ?_⟩
  have back := (shown ht).2
  rw [heq, (shown hu).2] at back
  exact (Option.some.inj back).symm

/-- A leap second at the end of a year, an hour into the year zero on a clock to the east. -/
def leapText : String := "0000-01-01t00:59:60.5+01:00"

theorem text_reads_back_leap :
    ∃ t : Timestamp,
      parse? leapText = some t ∧
        toString t = "0000-01-01T00:59:59.999999999+01:00" ∧
        parse? "0000-01-01T00:59:59.999999999+01:00" = some t ∧
        ∀ (source : String) (u : Timestamp), parse? source = some u →
          toString u = toString t → u = t := by
  obtain ⟨t, read⟩ : ∃ t, parse? leapText = some t := Option.isSome_iff_exists.mp rfl
  have shown : toString t = "0000-01-01T00:59:59.999999999+01:00" := by
    have text : (parse? leapText).map toString =
        some "0000-01-01T00:59:59.999999999+01:00" := by rfl
    rw [read] at text
    exact Option.some.inj text
  obtain ⟨back, apart⟩ := text_reads_back
  exact ⟨t, read, shown, shown ▸ (back leapText t read).2,
    fun source u h heq => apart source leapText u t h read heq⟩

end Timestamp

end CavityConsole

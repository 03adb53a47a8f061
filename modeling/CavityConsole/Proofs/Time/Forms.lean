import CavityConsole.Proofs.Time.Spelling

/-!
# Times are read as they are written

A text is read as a time in two steps: the form with an offset is tried first, the form without one
behind it. Each reader takes the right spellings of its form (`exists_of_zoned`, `exists_of_local`)
and takes all of them (`ofZonedText?_of_shows`, `ofLocalText?_of_shows`).

**The law** (`parse?_spelled`): a text is read exactly when it is a right spelling, and as the time
that it shows. No text has both forms, since an offset starts with a character that is in no
fraction (`fractionText_append_zone_ne`); so the order of the two steps does not matter.

A leap second is told by its instant. The date in universal time is found by going one day back or
on, which is far enough for any offset (`unixDay_universalDate`), and no two dates have one number;
so the reader finds the same day as the calendar (`precedesLeapSecond_iff`).
-/

namespace CavityConsole.Timestamp

/-! ## Leap seconds -/

/-- The date in universal time is as many days away as the clock shows. -/
theorem unixDay_universalDate (date : Date) (time : TimeOfDay) (offset : ZoneOffset) :
    86400 * (universalDate date time offset).unixDay +
        (time.seconds - 60 * offset.minutes) % 86400 =
      86400 * date.unixDay + (time.seconds - 60 * offset.minutes) := by
  have hoffset := offset.minutes_lt
  have hhour := time.hour_lt
  have hminute := time.minute_lt
  have hsecond := time.second_lt
  have hseconds : (time.seconds : Int) = 3600 * time.hour + 60 * time.minute + time.second := by
    rw [TimeOfDay.seconds]
    omega
  unfold universalDate ZoneOffset.seconds
  dsimp only
  split
  · rw [Date.unixDay_pred]
    omega
  · split
    · rw [Date.unixDay_succ]
      omega
    · omega

/-- A leap second follows the last second of a month in universal time. -/
theorem precedesLeapSecond_iff {date : Date} {time : TimeOfDay} {offset : ZoneOffset} :
    precedesLeapSecond date time offset = true ↔
      ∃ last : Date, last.IsLastOfMonth ∧
        86400 * date.unixDay + (time.seconds - 60 * offset.minutes) =
          86400 * last.unixDay + 86399 := by
  have huniversal := unixDay_universalDate date time offset
  unfold precedesLeapSecond ZoneOffset.seconds
  simp only [Bool.and_eq_true, decide_eq_true_eq, Date.endsMonth_iff]
  constructor
  · rintro ⟨hsecond, hlast⟩
    exact ⟨_, hlast, by omega⟩
  · rintro ⟨last, hlast, hday⟩
    have hsame : (universalDate date time offset).unixDay = last.unixDay := by omega
    rw [Date.unixDay_injective hsame]
    exact ⟨by omega, hlast⟩

/-- The second behind a written minute is a leap second when the minute is the last of a month. -/
theorem precedesLeapSecond_iff_isLeapSecond {s : Spelling} {zone : Zone} {date : Date}
    {time : TimeOfDay} {offset : ZoneOffset} (hzone : s.form.zone? = some zone)
    (hdate : s.IsDate date) (hoffset : zone.minutes = offset.minutes)
    (hhour : time.hour = s.clock.hour.value) (hminute : time.minute = s.clock.minute.value)
    (hsecond : time.second = 59) (hsixty : s.clock.second.value = 60) :
    precedesLeapSecond date time offset = true ↔ s.IsLeapSecond := by
  have hseconds : (time.seconds : Int) = 3600 * time.hour + 60 * time.minute + 59 := by
    rw [TimeOfDay.seconds, hsecond]
    omega
  rw [precedesLeapSecond_iff]
  constructor
  · rintro ⟨last, hlast, hday⟩
    rw [Date.unixDay_eq_countedDays, Date.unixDay_eq_countedDays] at hday
    exact ⟨hsixty, zone, date, last, hzone, hdate, hlast, by omega⟩
  · rintro ⟨-, zone', date', last, hzone', hdate', hlast, hday⟩
    have hsame : date'.unixDay = date.unixDay := Date.unixDay_eq_iff.mpr
      ⟨hdate'.1.trans hdate.1.symm, hdate'.2.1.trans hdate.2.1.symm,
        hdate'.2.2.trans hdate.2.2.symm⟩
    rw [hzone] at hzone'
    cases hzone'
    rw [← Date.unixDay_eq_countedDays, ← Date.unixDay_eq_countedDays] at hday
    exact ⟨last, hlast, by omega⟩

/-! ## The numbers of a clock -/

theorem time?_reading_iff {c : ClockDigits} {time : TimeOfDay} :
    c.reading.time? = some time ↔ c.second.value < 60 ∧ c.Shows time := by
  rw [Reading.time?, TimeOfDay.ofNumbers?_eq_some_iff]
  constructor
  · rintro ⟨hhour, hminute, hsecond, hnanosecond⟩
    have hless : c.second.value < 60 := hsecond.symm.trans_lt time.second_lt
    refine ⟨hless, hhour, hminute, ?_⟩
    rw [if_neg (Nat.ne_of_lt hless)]
    exact ⟨hsecond, hnanosecond⟩
  · rintro ⟨hless, hhour, hminute, hsecond⟩
    rw [if_neg (Nat.ne_of_lt hless)] at hsecond
    exact ⟨hhour, hminute, hsecond⟩

theorem ofNumbers?_sixty_iff {c : ClockDigits} {time : TimeOfDay} (hsixty : c.second.value = 60) :
    TimeOfDay.ofNumbers? c.reading.hour c.reading.minute 59 999999999 = some time ↔
      c.Shows time := by
  rw [TimeOfDay.ofNumbers?_eq_some_iff]
  constructor
  · rintro ⟨hhour, hminute, hsecond⟩
    refine ⟨hhour, hminute, ?_⟩
    rw [if_pos hsixty]
    exact hsecond
  · rintro ⟨hhour, hminute, hsecond⟩
    rw [if_pos hsixty] at hsecond
    exact ⟨hhour, hminute, hsecond⟩

/-- With an offset a clock shows an hour of a day, or a leap second. -/
theorem zonedTime_iff {s : Spelling} {zone : Zone} {date : Date} {offset : ZoneOffset}
    {t : Timestamp} (hzone : s.form.zone? = some zone) (hdate : s.IsDate date)
    (hoffset : zone.minutes = offset.minutes) :
    (if s.clock.reading.second = 60 then
        (TimeOfDay.ofNumbers? s.clock.reading.hour s.clock.reading.minute 59 999999999).bind
          fun time => if precedesLeapSecond date time offset then some ⟨date, time, some offset⟩
            else none
      else s.clock.reading.time?.bind fun time => some ⟨date, time, some offset⟩) = some t ↔
      (s.clock.second.value < 60 ∨ s.IsLeapSecond) ∧ s.clock.Shows t.time ∧
        t.date = date ∧ t.offset = some offset := by
  by_cases hsixty : s.clock.second.value = 60
  · have hprecedes : s.clock.Shows t.time →
        (precedesLeapSecond date t.time offset = true ↔ s.IsLeapSecond) := by
      rintro ⟨hhour, hminute, hsecond⟩
      rw [if_pos hsixty] at hsecond
      exact precedesLeapSecond_iff_isLeapSecond hzone hdate hoffset hhour hminute hsecond.1 hsixty
    rw [if_pos (show s.clock.reading.second = 60 from hsixty), Option.bind_eq_some_iff]
    constructor
    · rintro ⟨time, htime, h⟩
      split at h
      next hleap =>
        cases h
        have hshows := (ofNumbers?_sixty_iff hsixty).mp htime
        exact ⟨.inr ((hprecedes hshows).mp hleap), hshows, rfl, rfl⟩
      next => cases h
    · rintro ⟨hsecond, hshows, rfl, hzoned⟩
      have hleap : s.IsLeapSecond := hsecond.resolve_left (by omega)
      refine ⟨t.time, (ofNumbers?_sixty_iff hsixty).mpr hshows, ?_⟩
      rw [if_pos ((hprecedes hshows).mpr hleap), ← hzoned]
  · rw [if_neg (show ¬ s.clock.reading.second = 60 from hsixty), Option.bind_eq_some_iff]
    constructor
    · rintro ⟨time, htime, h⟩
      cases h
      obtain ⟨hless, hshows⟩ := time?_reading_iff.mp htime
      exact ⟨.inl hless, hshows, rfl, rfl⟩
    · rintro ⟨hsecond, hshows, rfl, hzoned⟩
      have hless : s.clock.second.value < 60 := hsecond.resolve_right fun h => hsixty h.1
      exact ⟨t.time, time?_reading_iff.mpr ⟨hless, hshows⟩, by rw [← hzoned]⟩

/-! ## The form with an offset -/

theorem text_zoned (between : Char) (zone : Zone) (date : DateDigits) (clock : ClockDigits) :
    Spelling.text ⟨.zoned between zone, date, clock⟩ =
      date.year.chars ++ '-' :: (date.month.chars ++ '-' :: (date.day.chars ++
        between :: (clock.text ++ zone.text))) := by
  simp [Spelling.text, DateDigits.text, Form.front, Form.between, Form.behind, Form.zone?]

theorem utf8Size_eq_one_iff {c : Char} : c.utf8Size = 1 ↔ ¬ 0x80 ≤ c.toNat := by
  rw [Char.utf8Size_eq_one_iff, UInt32.le_iff_toNat_le, Nat.not_le]
  exact Nat.lt_succ_iff.symm

theorem Zone.unfractioned (zone : Zone) : Unfractioned zone.text := by
  intro c hc
  cases zone with
  | universal capital => cases capital <;> cases hc <;> decide
  | distance west hours minutes => cases west <;> cases hc <;> decide

/-- What is read with an offset is spelled with one. -/
theorem exists_of_zoned {cs : List Char} {t : Timestamp} (h : ofZonedText? cs = some t) :
    ∃ s : Spelling, s.text = cs ∧ s.WellFormed ∧ s.Shows t ∧ s.form.zone?.isSome := by
  simp only [ofZonedText?, Option.bind_eq_bind, Option.bind_eq_some_iff, Prod.exists, number_iff,
    monthAndDay_iff] at h
  obtain ⟨_, _, ⟨year, rfl, rfl⟩, _, _, rest, ⟨month, day, rfl, rfl, rfl⟩, date, hdate, h⟩ := h
  split at h
  · cases h
  next between cs =>
    split at h
    · cases h
    next hbetween =>
      simp only [Option.bind_eq_some_iff, Prod.exists] at h
      obtain ⟨r, cs, hclock, offset, hzone, h⟩ := h
      obtain ⟨zone, rfl, hzone, hoffset⟩ := zone_iff.mp hzone
      obtain ⟨clock, rfl, rfl, -⟩ := (reading_iff zone.unfractioned).mp hclock
      let s : Spelling := ⟨.zoned between zone, ⟨year, month, day⟩, clock⟩
      have hdate : s.IsDate date := Date.ofNumbers?_eq_some_iff.mp hdate
      have hform : s.form.zone? = some zone := rfl
      obtain ⟨hsecond, hshows, rfl, hzoned⟩ := (zonedTime_iff hform hdate hoffset).mp h
      refine ⟨s, ?_, ⟨?_, ?_, ?_, hsecond, ?_⟩, ⟨hdate, hshows, ?_⟩, rfl⟩
      · exact text_zoned between zone ⟨year, month, day⟩ clock
      · exact Date.hasDay_iff_exists.mpr ⟨_, hdate⟩
      · exact hshows.hour ▸ t.time.hour_lt
      · exact hshows.minute ▸ t.time.minute_lt
      · exact ⟨utf8Size_eq_one_iff.mpr hbetween, hzone⟩
      · rw [hzoned]
        exact congrArg some hoffset.symm

/-- What is spelled with an offset is read with one. -/
theorem ofZonedText?_of_shows {s : Spelling} {t : Timestamp} (hform : s.form.zone?.isSome)
    (h : s.WellFormed) (hshows : s.Shows t) : ofZonedText? s.text = some t := by
  obtain ⟨⟨between, zone⟩ | sign, date, clock⟩ := s
  · obtain ⟨hbetween, hwritten⟩ : between.utf8Size = 1 ∧ zone.WellFormed := h.allowed
    obtain ⟨offset, hzoned, hoffset⟩ : ∃ offset, t.offset = some offset ∧
        offset.minutes = zone.minutes := Option.map_eq_some_iff.mp hshows.offset
    have hclock : reading none (clock.text ++ zone.text) = some (clock.reading, zone.text) :=
      (reading_iff zone.unfractioned).mpr ⟨clock, rfl, rfl, fun m hm => by cases hm⟩
    have hzone := zone_iff.mpr ⟨zone, rfl, hwritten, hoffset.symm⟩
    have hdate := Date.ofNumbers?_eq_some_iff.mpr hshows.date
    have htime := (zonedTime_iff rfl hshows.date hoffset.symm).mpr
      ⟨h.second, hshows.time, rfl, hzoned⟩
    simp only [ofZonedText?, Option.bind_eq_bind, Option.bind_eq_some_iff, Prod.exists, number_iff,
      monthAndDay_iff]
    refine ⟨_, _, ⟨date.year, text_zoned between zone date clock, rfl⟩, _, _, _,
      ⟨date.month, date.day, rfl, rfl, rfl⟩, t.date, hdate, ?_⟩
    dsimp only
    rw [if_neg (utf8Size_eq_one_iff.mp hbetween)]
    simp only [Option.bind_eq_some_iff, Prod.exists]
    exact ⟨_, _, hclock, offset, hzone, htime⟩
  · cases hform

/-! ## The form without an offset -/

theorem text_signed (sign : Sign) (date : DateDigits) (clock : ClockDigits) :
    Spelling.text ⟨.signed sign, date, clock⟩ =
      sign.text ++ (date.year.chars ++ '-' :: (date.month.chars ++ '-' :: (date.day.chars ++
        'T' :: (clock.text ++ [])))) := by
  simp [Spelling.text, DateDigits.text, Form.front, Form.between, Form.behind, Form.zone?]

/-- The sign in front of a year is taken off. -/
theorem ofLocalText?_eq (cs : List Char) :
    ofLocalText? cs =
      (number 4 (Decimal.takeSign cs).2).bind fun (year, cs') =>
        (monthAndDay cs').bind fun ((month, day), cs') =>
          (Date.ofNumbers? (if (Decimal.takeSign cs).1 then -(year : Int) else year) month day).bind
            fun date => (mark 'T' cs').bind fun cs' =>
              (reading (some 32) cs').bind fun (r, cs') =>
                if !cs'.isEmpty then none
                else r.time?.bind fun time => some ⟨date, time, none⟩ := by
  rfl

theorem exists_sign (cs : List Char) :
    ∃ (sign : Sign) (tail : List Char), cs = sign.text ++ tail ∧
      Decimal.takeSign cs = (sign.negative, tail) := by
  obtain ⟨_, tail, rfl, hsign, htake⟩ := exists_takeSign cs
  rcases hsign with rfl | rfl | rfl
  · exact ⟨.unsigned, tail, rfl, htake⟩
  · exact ⟨.plus, tail, rfl, htake⟩
  · exact ⟨.minus, tail, rfl, htake⟩

theorem takeSign_digits (sign : Sign) (d : Digits 4) (rest : List Char) :
    Decimal.takeSign (sign.text ++ (d.chars ++ rest)) = (sign.negative, d.chars ++ rest) := by
  cases sign with
  | plus => rfl
  | minus => rfl
  | unsigned =>
    obtain ⟨_ | ⟨c, more⟩, hlength, hdigits⟩ := d
    · cases hlength
    · exact takeSign_of_digit (hdigits c List.mem_cons_self) (more ++ rest)

/-- What is read without an offset is spelled without one. -/
theorem exists_of_local {cs : List Char} {t : Timestamp} (h : ofLocalText? cs = some t) :
    ∃ s : Spelling, s.text = cs ∧ s.WellFormed ∧ s.Shows t ∧ s.form.zone? = none := by
  obtain ⟨sign, tail, rfl, hsign⟩ := exists_sign cs
  rw [ofLocalText?_eq, hsign] at h
  simp only [Option.bind_eq_some_iff, Prod.exists, number_iff, monthAndDay_iff,
    mark_eq_some_iff] at h
  obtain ⟨_, _, ⟨year, rfl, rfl⟩, _, _, rest, ⟨month, day, rfl, rfl, rfl⟩, date, hdate, _, rfl, r,
    last, hclock, h⟩ := h
  split at h
  · cases h
  next hlast =>
    obtain rfl : last = [] := by simpa using hlast
    obtain ⟨clock, rfl, rfl, hfits⟩ := (reading_iff unfractioned_nil).mp hclock
    obtain ⟨time, htime, h⟩ := Option.bind_eq_some_iff.mp h
    cases h
    obtain ⟨hsecond, hshows⟩ := time?_reading_iff.mp htime
    let s : Spelling := ⟨.signed sign, ⟨year, month, day⟩, clock⟩
    have hdate : s.IsDate date := Date.ofNumbers?_eq_some_iff.mp hdate
    refine ⟨s, ?_, ⟨?_, ?_, ?_, .inl hsecond, hfits⟩, ⟨hdate, hshows, rfl⟩, rfl⟩
    · exact text_signed sign ⟨year, month, day⟩ clock
    · exact Date.hasDay_iff_exists.mpr ⟨_, hdate⟩
    · exact hshows.hour ▸ time.hour_lt
    · exact hshows.minute ▸ time.minute_lt

theorem ofLocalText?_of_shows {s : Spelling} {t : Timestamp} (hform : s.form.zone? = none)
    (h : s.WellFormed) (hshows : s.Shows t) : ofLocalText? s.text = some t := by
  obtain ⟨⟨between, zone⟩ | sign, date, clock⟩ := s
  · cases hform
  · have hoffset : t.offset = none := Option.map_eq_none_iff.mp hshows.offset
    have hclock := (reading_iff unfractioned_nil).mpr ⟨clock, rfl, rfl, h.allowed⟩
    have hdate := Date.ofNumbers?_eq_some_iff.mpr hshows.date
    have hsecond : clock.second.value < 60 := h.second.resolve_right fun hleap => by
      obtain ⟨-, zone, -, -, hzone, -⟩ := hleap
      cases hzone
    have htime := time?_reading_iff.mpr ⟨hsecond, hshows.time⟩
    rw [ofLocalText?_eq, text_signed, takeSign_digits]
    simp only [Option.bind_eq_some_iff, Prod.exists, number_iff, monthAndDay_iff, mark_eq_some_iff]
    refine ⟨_, _, ⟨date.year, rfl, rfl⟩, _, _, _, ⟨date.month, date.day, rfl, rfl, rfl⟩, t.date,
      hdate, _, rfl, _, _, hclock, ?_⟩
    rw [htime, Option.bind_some, ← hoffset]
    rfl

/-! ## No text has both forms -/

theorem Digits.tail_eq {width : Nat} {d e : Digits width} {c c' : Char} {rest rest' : List Char}
    (h : d.chars ++ c :: rest = e.chars ++ c' :: rest') : rest = rest' :=
  (List.cons.inj (List.append_inj_right h (d.length_chars.trans e.length_chars.symm))).2

/-- An offset starts with what is in no fraction. -/
theorem fractionText_append_zone_ne (zone : Zone) (f g : Option Fraction) :
    ClockDigits.fractionText f ++ zone.text ≠ ClockDigits.fractionText g := by
  intro h
  obtain ⟨c, hc⟩ : ∃ c, c ∈ zone.text.head? := by
    cases zone with
    | universal capital => exact ⟨_, rfl⟩
    | distance west hours minutes => exact ⟨_, rfl⟩
  obtain ⟨hdigit, hpoint⟩ := zone.unfractioned c hc
  have hmem : c ∈ ClockDigits.fractionText g :=
    h ▸ List.mem_append_right _ (List.mem_of_mem_head? hc)
  cases g with
  | none => cases hmem
  | some g =>
    rcases List.mem_cons.mp hmem with hfirst | hlater
    · exact hpoint hfirst
    · rw [g.isDigit c hlater] at hdigit
      cases hdigit

theorem text_zoned_ne_signed (between : Char) (zone : Zone) (sign : Sign) (date date' : DateDigits)
    (clock clock' : ClockDigits) :
    Spelling.text ⟨.zoned between zone, date, clock⟩ ≠
      Spelling.text ⟨.signed sign, date', clock'⟩ := by
  intro h
  rw [text_zoned, text_signed] at h
  -- no sign is in front of a year with an offset, so the years start together
  have hsign := congrArg Decimal.takeSign h
  have hnone := takeSign_digits .unsigned date.year
    ('-' :: (date.month.chars ++ '-' :: (date.day.chars ++ between :: (clock.text ++ zone.text))))
  rw [show Sign.text .unsigned = [] from rfl, List.nil_append] at hnone
  rw [hnone, takeSign_digits] at hsign
  have hdate := Digits.tail_eq (Digits.tail_eq (Digits.tail_eq (Prod.mk.inj hsign).2))
  simp only [ClockDigits.text, List.append_assoc, List.cons_append, List.append_nil] at hdate
  have hclock := Digits.tail_eq (Digits.tail_eq hdate)
  exact fractionText_append_zone_ne zone clock.fraction clock'.fraction
    (List.append_inj_right hclock
      (clock.second.length_chars.trans clock'.second.length_chars.symm))

/-- The form of a text is settled by its characters. -/
theorem isSome_zone?_of_text {s s' : Spelling} (h : s.text = s'.text) :
    s.form.zone?.isSome = s'.form.zone?.isSome := by
  obtain ⟨⟨between, zone⟩ | sign, date, clock⟩ := s
  · obtain ⟨⟨between', zone'⟩ | sign', date', clock'⟩ := s'
    · rfl
    · exact absurd h (text_zoned_ne_signed between zone sign' date date' clock clock')
  · obtain ⟨⟨between', zone'⟩ | sign', date', clock'⟩ := s'
    · exact absurd h.symm (text_zoned_ne_signed between' zone' sign date' date clock' clock)
    · rfl

/-! ## What is spelled is a time -/

theorem Fraction.nanoseconds_lt (f : Fraction) : f.nanoseconds < 1000000000 := by
  have hvalue : Nat.ofDigitChars 10 f.chars 0 < Nat.pow 10 f.chars.length := by
    simpa using ofDigitChars_lt f.isDigit 0
  exact Nat.div_lt_of_lt_mul (Nat.mul_lt_mul_of_pos_right hvalue (by decide))

theorem ClockDigits.nanoseconds_lt (c : ClockDigits) : c.nanoseconds < 1000000000 := by
  unfold ClockDigits.nanoseconds
  cases c.fraction with
  | none => decide
  | some f => exact f.nanoseconds_lt

theorem Zone.WellFormed.natAbs_minutes_lt {zone : Zone} (h : zone.WellFormed) :
    zone.minutes.natAbs < 1440 := by
  cases zone with
  | universal capital => exact Nat.zero_lt_succ _
  | distance west hours minutes =>
    obtain ⟨hhours, hminutes⟩ : hours.value < 24 ∧ minutes.value < 60 := h
    have hdistance := ZoneOffset.natAbs_distance_lt hhours hminutes
    cases west
    · exact hdistance
    · exact (Int.natAbs_neg _).trans_lt hdistance

theorem ClockDigits.exists_shows {c : ClockDigits} (hhour : c.hour.value < 24)
    (hminute : c.minute.value < 60) (hsecond : c.second.value ≤ 60) : ∃ time, c.Shows time := by
  by_cases hsixty : c.second.value = 60
  · let time : TimeOfDay :=
      ⟨c.hour.value, c.minute.value, 59, 999999999, hhour, hminute, by decide, by decide⟩
    exact ⟨time, (ofNumbers?_sixty_iff hsixty).mp (TimeOfDay.ofNumbers?_self time)⟩
  · have hless : c.second.value < 60 := by omega
    let time : TimeOfDay :=
      ⟨c.hour.value, c.minute.value, c.second.value, c.nanoseconds, hhour, hminute, hless,
        c.nanoseconds_lt⟩
    exact ⟨time, (time?_reading_iff.mp (TimeOfDay.ofNumbers?_self time)).2⟩

/-- A spelling that is right shows a time. -/
theorem Spelling.WellFormed.exists_shows {s : Spelling} (h : s.WellFormed) :
    ∃ t, s.Shows t := by
  obtain ⟨date, hdate⟩ := Date.hasDay_iff_exists.mp h.day
  have hsecond : s.clock.second.value ≤ 60 := h.second.elim Nat.le_of_lt fun hleap => hleap.1.le
  obtain ⟨time, htime⟩ := ClockDigits.exists_shows h.hour h.minute hsecond
  obtain ⟨⟨between, zone⟩ | sign, numbers, clock⟩ := s
  · obtain ⟨-, hzone⟩ : between.utf8Size = 1 ∧ zone.WellFormed := h.allowed
    exact ⟨⟨date, time, some ⟨zone.minutes, hzone.natAbs_minutes_lt⟩⟩, hdate, htime, rfl⟩
  · exact ⟨⟨date, time, none⟩, hdate, htime, rfl⟩

/-! ## The two forms -/

/-- What is read without an offset is not read with one. -/
theorem ofZonedText?_eq_none_of_local {cs : List Char} {t : Timestamp}
    (h : ofLocalText? cs = some t) : ofZonedText? cs = none := by
  obtain ⟨s, rfl, -, -, hnone⟩ := exists_of_local h
  cases hzoned : ofZonedText? s.text with
  | none => rfl
  | some u =>
    obtain ⟨s', htext, -, -, hsome⟩ := exists_of_zoned hzoned
    rw [isSome_zone?_of_text htext, hnone] at hsome
    cases hsome

theorem parse?_eq_some_iff {text : String} {t : Timestamp} :
    parse? text = some t ↔ ∃ s : Spelling, s.text = text.toList ∧ s.WellFormed ∧ s.Shows t := by
  constructor
  · intro h
    rcases Option.or_eq_some_iff.mp h with hzoned | ⟨-, hlocal⟩
    · obtain ⟨s, htext, hs, hshows, -⟩ := exists_of_zoned hzoned
      exact ⟨s, htext, hs, hshows⟩
    · obtain ⟨s, htext, hs, hshows, -⟩ := exists_of_local hlocal
      exact ⟨s, htext, hs, hshows⟩
  · rintro ⟨s, htext, hs, hshows⟩
    rw [parse?, ← htext]
    cases hform : s.form.zone? with
    | some zone =>
      rw [ofZonedText?_of_shows (by rw [hform]; rfl) hs hshows, Option.some_or]
    | none =>
      have hlocal := ofLocalText?_of_shows hform hs hshows
      rw [ofZonedText?_eq_none_of_local hlocal, Option.none_or, hlocal]

/-- **Times are read as they are written, in two forms.** A text is read as a time exactly when it
is a right spelling of it, in one of the two forms, and every right spelling is read. No text has
both forms, so it does not matter which is tried first, and a time has an offset when its text has
the form with one. -/
theorem parse?_spelled :
    (∀ (text : String) (t : Timestamp),
        parse? text = some t ↔
          ∃ s : Spelling, s.text = text.toList ∧ s.WellFormed ∧ s.Shows t) ∧
      (∀ text : String,
        (parse? text).isSome ↔ ∃ s : Spelling, s.text = text.toList ∧ s.WellFormed) ∧
      (∀ s s' : Spelling, s.text = s'.text → s.form.zone?.isSome = s'.form.zone?.isSome) ∧
      (∀ text : String,
        (ofLocalText? text.toList).or (ofZonedText? text.toList) = parse? text) ∧
      ∀ (text : String) (t : Timestamp) (s : Spelling), parse? text = some t →
        s.text = text.toList → t.offset.isSome = s.form.zone?.isSome := by
  refine ⟨fun text t => parse?_eq_some_iff, fun text => ?_, fun s s' => isSome_zone?_of_text,
    fun text => ?_, fun text t s h htext => ?_⟩
  · rw [Option.isSome_iff_exists]
    constructor
    · rintro ⟨t, h⟩
      obtain ⟨s, htext, hs, -⟩ := parse?_eq_some_iff.mp h
      exact ⟨s, htext, hs⟩
    · rintro ⟨s, htext, hs⟩
      obtain ⟨t, hshows⟩ := hs.exists_shows
      exact ⟨t, parse?_eq_some_iff.mpr ⟨s, htext, hs, hshows⟩⟩
  · rw [parse?]
    cases hlocal : ofLocalText? text.toList with
    | none => rw [Option.none_or, Option.or_none]
    | some t => rw [ofZonedText?_eq_none_of_local hlocal, Option.none_or, Option.or_none]
  · obtain ⟨s', htext', -, hshows⟩ := parse?_eq_some_iff.mp h
    have hoffset := congrArg Option.isSome hshows.offset
    rw [Option.isSome_map, Option.isSome_map] at hoffset
    rw [hoffset, isSome_zone?_of_text (htext'.trans htext.symm)]

/-- The second after the last minute of 1990, on a clock eight hours behind. -/
def leapSpelling : Spelling where
  form := .zoned ' ' (.distance true ⟨['0', '8'], rfl, List.all_eq_true.mp rfl⟩
    ⟨['0', '0'], rfl, List.all_eq_true.mp rfl⟩)
  date :=
    { year := ⟨['1', '9', '9', '0'], rfl, List.all_eq_true.mp rfl⟩
      month := ⟨['1', '2'], rfl, List.all_eq_true.mp rfl⟩
      day := ⟨['3', '1'], rfl, List.all_eq_true.mp rfl⟩ }
  clock :=
    { hour := ⟨['1', '5'], rfl, List.all_eq_true.mp rfl⟩
      minute := ⟨['5', '9'], rfl, List.all_eq_true.mp rfl⟩
      second := ⟨['6', '0'], rfl, List.all_eq_true.mp rfl⟩
      fraction := none }

/-- A leap day before the year zero, with ten digits of a fraction. -/
def leapDaySpelling : Spelling where
  form := .signed .minus
  date :=
    { year := ⟨['0', '0', '0', '4'], rfl, List.all_eq_true.mp rfl⟩
      month := ⟨['0', '2'], rfl, List.all_eq_true.mp rfl⟩
      day := ⟨['2', '9'], rfl, List.all_eq_true.mp rfl⟩ }
  clock :=
    { hour := ⟨['2', '3'], rfl, List.all_eq_true.mp rfl⟩
      minute := ⟨['5', '9'], rfl, List.all_eq_true.mp rfl⟩
      second := ⟨['5', '9'], rfl, List.all_eq_true.mp rfl⟩
      fraction := some ⟨['0', '1', '2', '3', '4', '5', '6', '7', '8', '9'], List.cons_ne_nil _ _,
        List.all_eq_true.mp rfl⟩ }

theorem wellFormed_leapSpelling : leapSpelling.WellFormed := by
  let date : Date := ⟨1990, 12, 31, by decide, by decide⟩
  refine ⟨⟨by decide, by decide, 31, rfl, by decide⟩, by decide, by decide,
    .inr ⟨rfl, _, date, date, rfl, ⟨rfl, rfl, rfl⟩, rfl, ?_⟩, by decide, by decide, by decide⟩
  show 1440 * date.countedDays + (60 * (15 : Nat) + (59 : Nat)) - (-480) = _
  omega

theorem wellFormed_leapDaySpelling : leapDaySpelling.WellFormed := by
  refine ⟨⟨by decide, by decide, 29, rfl, by decide⟩, by decide, by decide, .inl (by decide), ?_⟩
  intro m hm f hf
  cases hm
  cases hf
  decide

theorem parse?_spelled_leap :
    ∃ t u : Timestamp,
      parse? "1990-12-31 15:59:60-08:00" = some t ∧ t.time.second = 59 ∧
        t.time.nanosecond = 999999999 ∧ t.offset.isSome = true ∧
      parse? "-0004-02-29T23:59:59.0123456789" = some u ∧ u.date.year = -4 ∧
        u.time.nanosecond = 12345678 ∧ u.offset.isSome = false ∧
      ∀ s : Spelling, s.text = leapSpelling.text → s.form.zone?.isSome = true := by
  obtain ⟨spelled, -, disjoint, -, offset⟩ := parse?_spelled
  obtain ⟨t, ht⟩ := wellFormed_leapSpelling.exists_shows
  obtain ⟨u, hu⟩ := wellFormed_leapDaySpelling.exists_shows
  have hread := (spelled "1990-12-31 15:59:60-08:00" t).mpr
    ⟨leapSpelling, rfl, wellFormed_leapSpelling, ht⟩
  have hread' := (spelled "-0004-02-29T23:59:59.0123456789" u).mpr
    ⟨leapDaySpelling, rfl, wellFormed_leapDaySpelling, hu⟩
  have hsecond : t.time.second = 59 ∧ t.time.nanosecond = 999999999 := ht.time.second
  have hsecond' : u.time.second = 59 ∧ u.time.nanosecond = 12345678 := hu.time.second
  exact ⟨t, u, hread, hsecond.1, hsecond.2, offset _ t leapSpelling hread rfl, hread', hu.date.1,
    hsecond'.2, offset _ u leapDaySpelling hread' rfl, fun s => disjoint s leapSpelling⟩

end CavityConsole.Timestamp

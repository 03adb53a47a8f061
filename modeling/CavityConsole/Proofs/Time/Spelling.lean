import CavityConsole.Proofs.Time.Days

/-!
# The spellings of a time

A time is spelled with an offset or without one (`Form`). Around the form stand the digits of a date
and of a clock, of fixed width but for those of a fraction. A spelling is right when the calendar
and the clock have its numbers (`Spelling.WellFormed`), and it shows a time that has these numbers
as they are written (`Spelling.Shows`).

A second numbered 60 is shown as the last nanosecond before it. It has to be a leap second: by the
offset that is written with it, it follows the last minute of a month in universal time
(`Spelling.IsLeapSecond`).

The readers of the pieces take the text of what they read, and nothing else (`number_iff`,
`monthAndDay_iff`, `reading_iff`, `zone_iff`).
-/

namespace CavityConsole

theorem TimeOfDay.ofNumbers?_eq_some_iff {hour minute second nanosecond : Nat} {time : TimeOfDay} :
    ofNumbers? hour minute second nanosecond = some time ↔
      time.hour = hour ∧ time.minute = minute ∧ time.second = second ∧
        time.nanosecond = nanosecond := by
  constructor
  · intro h
    unfold ofNumbers? at h
    split at h <;> cases h
    exact ⟨rfl, rfl, rfl, rfl⟩
  · rintro ⟨rfl, rfl, rfl, rfl⟩
    exact ofNumbers?_self time

theorem ZoneOffset.ofNumbers?_eq_some_iff {west : Bool} {hours minutes : Nat}
    {offset : ZoneOffset} :
    ofNumbers? west hours minutes = some offset ↔
      (hours < 24 ∧ minutes < 60) ∧
        (if west then -((60 * hours + minutes : Nat) : Int) else (60 * hours + minutes : Nat)) =
          offset.minutes := by
  obtain ⟨distance, hdistance⟩ := offset
  unfold ofNumbers?
  split
  next h => cases west <;> simp [h]
  next h => exact iff_of_false (Option.some_ne_none _).symm fun hand => h hand.1

namespace Timestamp

/-! ## The pieces of a spelling -/

/-- So many decimal digits. -/
structure Digits (width : Nat) where
  /-- The digits. -/
  chars : List Char
  /-- There are so many of them. -/
  length_chars : chars.length = width
  /-- They are digits. -/
  isDigit : ∀ c ∈ chars, c.isDigit = true

/-- The number that digits stand for. -/
def Digits.value {width : Nat} (d : Digits width) : Nat := Nat.ofDigitChars 10 d.chars 0

/-- The digits of a fraction of a second, at least one. -/
structure Fraction where
  /-- The digits. -/
  chars : List Char
  /-- There is a digit. -/
  chars_ne_nil : chars ≠ []
  /-- They are digits. -/
  isDigit : ∀ c ∈ chars, c.isDigit = true

/-- The whole nanoseconds of a fraction. -/
def Fraction.nanoseconds (f : Fraction) : Nat :=
  Nat.ofDigitChars 10 f.chars 0 * 1000000000 / Nat.pow 10 f.chars.length

/-- The numbers of a date. -/
structure DateDigits where
  /-- The year, without its sign. -/
  year : Digits 4
  /-- The month. -/
  month : Digits 2
  /-- The day of the month. -/
  day : Digits 2

/-- Year, month and day with dashes between them. -/
def DateDigits.text (d : DateDigits) : List Char :=
  d.year.chars ++ '-' :: (d.month.chars ++ '-' :: d.day.chars)

/-- The numbers of a clock. -/
structure ClockDigits where
  /-- The hour. -/
  hour : Digits 2
  /-- The minute. -/
  minute : Digits 2
  /-- The second. -/
  second : Digits 2
  /-- The fraction of the second, if there is one. -/
  fraction : Option Fraction

namespace ClockDigits

/-- The text of a fraction, behind its point. -/
def fractionText : Option Fraction → List Char
  | none => []
  | some f => '.' :: f.chars

/-- Hour, minute and second with colons between them, and the fraction. -/
def text (c : ClockDigits) : List Char :=
  c.hour.chars ++ ':' :: (c.minute.chars ++ ':' :: (c.second.chars ++ fractionText c.fraction))

/-- The whole nanoseconds of the fraction. -/
def nanoseconds (c : ClockDigits) : Nat := (c.fraction.map Fraction.nanoseconds).getD 0

/-- The numbers. -/
def reading (c : ClockDigits) : Reading :=
  ⟨c.hour.value, c.minute.value, c.second.value, c.nanoseconds⟩

/-- The time of day has the numbers that are written. In place of a second numbered 60 it has the
last nanosecond before. -/
structure Shows (c : ClockDigits) (time : TimeOfDay) : Prop where
  hour : time.hour = c.hour.value
  minute : time.minute = c.minute.value
  second : if c.second.value = 60 then time.second = 59 ∧ time.nanosecond = 999999999
    else time.second = c.second.value ∧ time.nanosecond = c.nanoseconds

/-- The fraction has at most so many digits. -/
def Fits (most : Option Nat) (c : ClockDigits) : Prop :=
  ∀ m ∈ most, ∀ f ∈ c.fraction, f.chars.length ≤ m

end ClockDigits

/-- An offset as it is written. -/
inductive Zone
  /-- Universal time, by a letter of either case. -/
  | universal (capital : Bool)
  /-- So many hours and minutes behind a minus sign, which is to the west, or a plus sign. -/
  | distance (west : Bool) (hours minutes : Digits 2)

namespace Zone

/-- The characters of an offset. -/
def text : Zone → List Char
  | universal capital => [if capital then 'Z' else 'z']
  | distance west hours minutes =>
    (if west then '-' else '+') :: (hours.chars ++ ':' :: minutes.chars)

/-- The minutes that a clock is ahead of universal time. -/
def minutes : Zone → Int
  | universal _ => 0
  | distance west hours minutes =>
    let distance : Int := (60 * hours.value + minutes.value : Nat)
    if west then -distance else distance

/-- A clock has these hours and minutes. -/
def WellFormed : Zone → Prop
  | universal _ => True
  | distance _ hours minutes => hours.value < 24 ∧ minutes.value < 60

end Zone

/-- What may stand in front of a year. -/
inductive Sign
  /-- Nothing. -/
  | unsigned
  /-- A plus sign. -/
  | plus
  /-- A minus sign. -/
  | minus

namespace Sign

/-- The characters of a sign. -/
def text : Sign → List Char
  | unsigned => []
  | plus => ['+']
  | minus => ['-']

/-- The year is before the year zero. -/
def negative : Sign → Bool
  | minus => true
  | _ => false

end Sign

/-! ## Spellings -/

/-- What stands around date and clock. -/
inductive Form
  /-- One character between date and clock, and an offset behind them. -/
  | zoned (between : Char) (zone : Zone)
  /-- A sign in front of the year, and `T` between date and clock. -/
  | signed (sign : Sign)

namespace Form

/-- What stands in front of the date. -/
def front : Form → List Char
  | zoned _ _ => []
  | signed sign => sign.text

/-- The sign is a minus. -/
def negative : Form → Bool
  | zoned _ _ => false
  | signed sign => sign.negative

/-- What stands between date and clock. -/
def between : Form → Char
  | zoned between _ => between
  | signed _ => 'T'

/-- The offset that is written. -/
def zone? : Form → Option Zone
  | zoned _ zone => some zone
  | signed _ => none

/-- What stands behind the clock. -/
def behind (form : Form) : List Char := (form.zone?.map Zone.text).getD []

end Form

/-- A time as it is written. -/
structure Spelling where
  /-- What stands around date and clock. -/
  form : Form
  /-- The date. -/
  date : DateDigits
  /-- The clock. -/
  clock : ClockDigits

namespace Spelling

/-- The characters of a spelling. -/
def text (s : Spelling) : List Char :=
  s.form.front ++ (s.date.text ++ s.form.between :: (s.clock.text ++ s.form.behind))

/-- The year with its sign. -/
def year (s : Spelling) : Int :=
  if s.form.negative then -(s.date.year.value : Int) else s.date.year.value

/-- The date is the written one. -/
def IsDate (s : Spelling) (date : Date) : Prop :=
  date.year = s.year ∧ date.month = s.date.month.value ∧ date.day = s.date.day.value

/-- The second is numbered 60, and in universal time it follows the last minute of a month. -/
def IsLeapSecond (s : Spelling) : Prop :=
  s.clock.second.value = 60 ∧
    ∃ (zone : Zone) (date last : Date),
      s.form.zone? = some zone ∧ s.IsDate date ∧ last.IsLastOfMonth ∧
      1440 * date.countedDays + (60 * s.clock.hour.value + s.clock.minute.value) - zone.minutes =
        1440 * last.countedDays + 1439

/-- The form allows what is written: a character of one byte between date and clock and an offset
that a clock has, or at most 32 digits of a fraction. -/
def Allowed (s : Spelling) : Prop :=
  match s.form with
  | .zoned between zone => between.utf8Size = 1 ∧ zone.WellFormed
  | .signed _ => s.clock.Fits (some 32)

/-- The calendar and the clock have what is written. -/
structure WellFormed (s : Spelling) : Prop where
  day : Calendar.HasDay s.year s.date.month.value s.date.day.value
  hour : s.clock.hour.value < 24
  minute : s.clock.minute.value < 60
  second : s.clock.second.value < 60 ∨ s.IsLeapSecond
  allowed : s.Allowed

/-- The time has the date, the numbers of the clock and the offset that are written. -/
structure Shows (s : Spelling) (t : Timestamp) : Prop where
  date : s.IsDate t.date
  time : s.clock.Shows t.time
  offset : t.offset.map ZoneOffset.minutes = s.form.zone?.map Zone.minutes

end Spelling

/-! ## Readers of the pieces -/

/-- A number is read from its digits. -/
theorem number_iff {width n : Nat} {cs rest : List Char} :
    number width cs = some (n, rest) ↔ ∃ d : Digits width, cs = d.chars ++ rest ∧ d.value = n := by
  rw [number_eq_some_iff]
  constructor
  · rintro ⟨digits, hcs, hlength, hdigits, hvalue⟩
    exact ⟨⟨digits, hlength, hdigits⟩, hcs, hvalue⟩
  · rintro ⟨d, hcs, hvalue⟩
    exact ⟨d.chars, hcs, d.length_chars, d.isDigit, hvalue⟩

theorem number_digits {width : Nat} (d : Digits width) (rest : List Char) :
    number width (d.chars ++ rest) = some (d.value, rest) :=
  number_iff.mpr ⟨d, rfl, rfl⟩

theorem monthAndDay_iff {month day : Nat} {cs rest : List Char} :
    monthAndDay cs = some ((month, day), rest) ↔
      ∃ m d : Digits 2, cs = '-' :: (m.chars ++ '-' :: (d.chars ++ rest)) ∧
        m.value = month ∧ d.value = day := by
  simp only [monthAndDay, Option.bind_eq_bind, Option.bind_eq_some_iff, mark_eq_some_iff,
    number_iff, Prod.exists, Option.pure_def, Option.some.injEq, Prod.mk.injEq]
  constructor
  · rintro ⟨_, rfl, _, _, ⟨m, rfl, rfl⟩, _, rfl, _, _, ⟨d, rfl, rfl⟩, ⟨rfl, rfl⟩, rfl⟩
    exact ⟨m, d, rfl, rfl, rfl⟩
  · rintro ⟨m, d, rfl, rfl, rfl⟩
    exact ⟨_, rfl, _, _, ⟨m, rfl, rfl⟩, _, rfl, _, _, ⟨d, rfl, rfl⟩, ⟨rfl, rfl⟩, rfl⟩

/-- The digits behind the ninth do not count. -/
theorem nanoseconds_chars (f : Fraction) : Timestamp.nanoseconds f.chars = f.nanoseconds := by
  show _ * 10 ^ (9 - f.chars.length) = _ * 10 ^ 9 / 10 ^ f.chars.length
  rcases Nat.le_total f.chars.length 9 with hfew | hmany
  · rw [List.take_of_length_le hfew, Nat.mul_div_assoc _ (Nat.pow_dvd_pow 10 hfew),
      Nat.pow_div hfew (by decide)]
  · have hdigits : f.chars = f.chars.take 9 ++ f.chars.drop 9 :=
      (List.take_append_drop 9 f.chars).symm
    have hlength : (f.chars.drop 9).length = f.chars.length - 9 := List.length_drop
    have hrest : Nat.ofDigitChars 10 (f.chars.drop 9) 0 < 10 ^ (f.chars.length - 9) := by
      simpa [hlength] using ofDigitChars_lt (fun c hc => f.isDigit c (List.mem_of_mem_drop hc)) 0
    have hvalue : Nat.ofDigitChars 10 f.chars 0 =
        10 ^ (f.chars.length - 9) * Nat.ofDigitChars 10 (f.chars.take 9) 0 +
          Nat.ofDigitChars 10 (f.chars.drop 9) 0 := by
      conv => lhs; rw [hdigits]
      rw [Nat.ofDigitChars_append, Nat.ofDigitChars_eq_ofDigitChars_zero, hlength]
    have hpow : 10 ^ f.chars.length = 10 ^ (f.chars.length - 9) * 10 ^ 9 := by
      rw [← Nat.pow_add, Nat.sub_add_cancel hmany]
    rw [hvalue, hpow, Nat.mul_div_mul_right _ _ (by decide),
      Nat.mul_add_div (Nat.pow_pos (by decide)), Nat.div_eq_of_lt hrest,
      Nat.sub_eq_zero_of_le hmany, Nat.pow_zero, Nat.mul_one, Nat.add_zero]

theorem exists_of_fraction {most : Option Nat} {n : Nat} {cs rest : List Char}
    (h : fraction most cs = some (n, rest)) :
    ∃ f : Option Fraction, cs = ClockDigits.fractionText f ++ rest ∧
      (f.map Fraction.nanoseconds).getD 0 = n ∧ ∀ m ∈ most, ∀ g ∈ f, g.chars.length ≤ m := by
  unfold fraction at h
  split at h
  next more =>
    dsimp only at h
    split at h
    next => cases h
    next hdigits =>
      cases h
      rw [not_or, List.isEmpty_iff] at hdigits
      refine ⟨some ⟨more.takeWhile Char.isDigit, hdigits.1,
        List.all_eq_true.mp List.all_takeWhile⟩, ?_, ?_, ?_⟩
      · rw [ClockDigits.fractionText, List.cons_append, List.takeWhile_append_dropWhile]
      · exact (nanoseconds_chars _).symm
      · intro m hm g hg
        cases hm
        cases hg
        simpa using hdigits.2
  next =>
    cases h
    exact ⟨none, rfl, rfl, fun m hm g hg => by cases hg⟩

theorem fraction_text {most : Option Nat} {f : Option Fraction} {rest : List Char}
    (hmost : ∀ m ∈ most, ∀ g ∈ f, g.chars.length ≤ m) (hrest : Unfractioned rest) :
    fraction most (ClockDigits.fractionText f ++ rest) =
      some ((f.map Fraction.nanoseconds).getD 0, rest) := by
  cases f with
  | none => exact fraction_of_unfractioned hrest most
  | some f =>
    rw [ClockDigits.fractionText, List.cons_append, fraction_digits f.chars_ne_nil f.isDigit
      (fun m hm => hmost m hm f rfl) hrest.noDigit, nanoseconds_chars, Option.map_some,
      Option.getD_some]

/-- A clock is read from its numbers, in front of what cannot go on a fraction. -/
theorem reading_iff {most : Option Nat} {r : Reading} {cs rest : List Char}
    (hrest : Unfractioned rest) :
    reading most cs = some (r, rest) ↔
      ∃ c : ClockDigits, cs = c.text ++ rest ∧ c.reading = r ∧ c.Fits most := by
  simp only [reading, Option.bind_eq_bind, Option.bind_eq_some_iff, mark_eq_some_iff, number_iff,
    Prod.exists, Option.pure_def, Option.some.injEq, Prod.mk.injEq]
  constructor
  · rintro ⟨_, _, ⟨hour, rfl, rfl⟩, _, rfl, _, _, ⟨minute, rfl, rfl⟩, _, rfl, _, _,
      ⟨second, rfl, rfl⟩, _, _, hfraction, rfl, rfl⟩
    obtain ⟨f, rfl, rfl, hmost⟩ := exists_of_fraction hfraction
    exact ⟨⟨hour, minute, second, f⟩, by simp [ClockDigits.text], rfl, hmost⟩
  · rintro ⟨c, rfl, rfl, hmost⟩
    refine ⟨_, _, ⟨c.hour, by simp [ClockDigits.text], rfl⟩, _, rfl, _, _, ⟨c.minute, rfl, rfl⟩, _,
      rfl, _, _, ⟨c.second, rfl, rfl⟩, _, _, fraction_text hmost hrest, rfl, rfl⟩

theorem zone_iff {offset : ZoneOffset} {cs : List Char} :
    zone cs = some offset ↔
      ∃ z : Zone, cs = z.text ∧ z.WellFormed ∧ z.minutes = offset.minutes := by
  constructor
  · intro h
    unfold zone at h
    split at h
    · cases h
      exact ⟨.universal true, rfl, trivial, rfl⟩
    · cases h
      exact ⟨.universal false, rfl, trivial, rfl⟩
    next sign rest _ _ =>
      split at h
      · cases h
      next hsign =>
        simp only [Option.bind_eq_bind, Option.bind_eq_some_iff, mark_eq_some_iff, number_iff,
          Prod.exists] at h
        obtain ⟨_, _, ⟨hours, rfl, rfl⟩, _, rfl, _, last, ⟨minutes, rfl, rfl⟩, h⟩ := h
        split at h
        · cases h
        next hlast =>
          have hlast : last = [] := by simpa using hlast
          obtain ⟨hclock, hminutes⟩ := ZoneOffset.ofNumbers?_eq_some_iff.mp h
          refine ⟨.distance (decide (sign = '-')) hours minutes, ?_, hclock, hminutes⟩
          rw [hlast, List.append_nil, Zone.text]
          by_cases hminus : sign = '-'
          · simp [hminus]
          · have hplus : sign = '+' := by tauto
            simp [hplus]
    · cases h
  · rintro ⟨z, rfl, hz, hminutes⟩
    cases z with
    | universal capital =>
      obtain ⟨minutes, hlt⟩ := offset
      cases hminutes
      cases capital <;> rfl
    | distance west hours minutes =>
      have hoffset := ZoneOffset.ofNumbers?_eq_some_iff.mpr ⟨hz, hminutes⟩
      have hhours := number_digits hours (':' :: minutes.chars)
      have hend := number_digits minutes []
      rw [List.append_nil] at hend
      cases west <;> simp [Zone.text, zone, hhours, mark_cons, hend, hoffset]

end Timestamp

end CavityConsole

/-!
# The proleptic Gregorian calendar

The rules of the Gregorian calendar applied to all years, the year zero and earlier ones included.
Days are counted in closed form; `daysBeforeYear` is the number of days from the first day of the
year zero, negative for earlier years.
-/

namespace CavityConsole.Calendar

/-- Whether a year has a leap day. -/
def isLeapYear (year : Int) : Bool := year % 4 = 0 && (year % 100 != 0 || year % 400 = 0)

/-- How many days a month has, months counted from one. -/
def monthLength (year : Int) (month : Nat) : Nat :=
  match month with
  | 1 | 3 | 5 | 7 | 8 | 10 | 12 => 31
  | 4 | 6 | 9 | 11 => 30
  | 2 => if isLeapYear year then 29 else 28
  | _ => 0

/-- How many days a year has. -/
def yearLength (year : Int) : Nat := if isLeapYear year then 366 else 365

/-- The days from the first day of the year zero to the first day of a year. -/
def daysBeforeYear (year : Int) : Int :=
  365 * year + (year + 3) / 4 - (year + 99) / 100 + (year + 399) / 400

/-- The days of a year before a month. -/
def daysBeforeMonth (year : Int) (month : Nat) : Nat :=
  (List.range' 1 (month - 1)).foldl (fun days before => days + monthLength year before) 0

end CavityConsole.Calendar

namespace CavityConsole

/-- A day of the calendar. -/
structure Date where
  /-- The year; the year before the year one is zero. -/
  year : Int
  /-- The month, counted from one. -/
  month : Nat
  /-- The day of the month, counted from one. -/
  day : Nat
  /-- The month is one of the twelve. -/
  month_range : 1 ≤ month ∧ month ≤ 12
  /-- The month has such a day. -/
  day_range : 1 ≤ day ∧ day ≤ Calendar.monthLength year month
deriving DecidableEq

namespace Date

/-- The day with these numbers, if the calendar has one. -/
def ofNumbers? (year : Int) (month day : Nat) : Option Date :=
  if hm : 1 ≤ month ∧ month ≤ 12 then
    if hd : 1 ≤ day ∧ day ≤ Calendar.monthLength year month then some ⟨year, month, day, hm, hd⟩
    else none
  else none

/-- The days from the first day of the year zero. -/
def dayNumber (date : Date) : Int :=
  Calendar.daysBeforeYear date.year + Calendar.daysBeforeMonth date.year date.month +
    (date.day - 1 : Nat)

/-- The days from the first day of 1970. -/
def unixDay (date : Date) : Int := date.dayNumber - Calendar.daysBeforeYear 1970

/-- Whether it is the last day of its month. -/
def endsMonth (date : Date) : Bool := date.day == Calendar.monthLength date.year date.month

/-- The day before. -/
def pred (date : Date) : Date :=
  match ofNumbers? date.year date.month (date.day - 1) with
  | some d => d
  | none =>
    let before := date.month - 1
    match ofNumbers? date.year before (Calendar.monthLength date.year before) with
    | some d => d
    | none => ⟨date.year - 1, 12, 31, by decide, by simp [Calendar.monthLength]⟩

/-- The day after. -/
def succ (date : Date) : Date :=
  match ofNumbers? date.year date.month (date.day + 1) with
  | some d => d
  | none =>
    match ofNumbers? date.year (date.month + 1) 1 with
    | some d => d
    | none => ⟨date.year + 1, 1, 1, by decide, by simp [Calendar.monthLength]⟩

end Date

/-- A time of day, to the nanosecond. -/
structure TimeOfDay where
  /-- The hour. -/
  hour : Nat
  /-- The minute. -/
  minute : Nat
  /-- The second. -/
  second : Nat
  /-- The nanosecond. -/
  nanosecond : Nat
  /-- A day has 24 hours. -/
  hour_lt : hour < 24
  /-- An hour has 60 minutes. -/
  minute_lt : minute < 60
  /-- A minute has 60 seconds. -/
  second_lt : second < 60
  /-- A second has a thousand million nanoseconds. -/
  nanosecond_lt : nanosecond < 1000000000
deriving DecidableEq

namespace TimeOfDay

/-- The time with these numbers, if a day has one. -/
def ofNumbers? (hour minute second nanosecond : Nat) : Option TimeOfDay :=
  if h : hour < 24 ∧ minute < 60 ∧ second < 60 ∧ nanosecond < 1000000000 then
    some ⟨hour, minute, second, nanosecond, h.1, h.2.1, h.2.2.1, h.2.2.2⟩
  else none

/-- The whole seconds since midnight. -/
def seconds (time : TimeOfDay) : Nat := 3600 * time.hour + 60 * time.minute + time.second

end TimeOfDay

end CavityConsole

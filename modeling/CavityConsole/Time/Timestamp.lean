import CavityConsole.Time.Calendar
import CavityConsole.Time.Duration

/-!
# Times sent by the server

The server writes the time of an event in one of two forms: with an offset from universal time, as
`2023-09-12T10:26:21.5+01:00`, or without one. A time with an offset keeps it; a time without one
stays a reading of the server's clock, and no zone is invented for it. In both forms the date and
the time are kept as written.

A second numbered 60 is read only where a leap second can be: in the form with an offset, when it is
23:59:60 of universal time on the last day of a month. It is kept as the last nanosecond before it.
-/

namespace CavityConsole

/-- A distance from universal time in whole minutes, less than a day; positive to the east. -/
structure ZoneOffset where
  /-- The minutes. -/
  minutes : Int
  /-- The distance is less than a day. -/
  minutes_lt : minutes.natAbs < 1440
deriving DecidableEq

namespace ZoneOffset

/-- Universal time itself. -/
def universal : ZoneOffset := ⟨0, Nat.zero_lt_succ _⟩

theorem natAbs_distance_lt {hours minutes : Nat} (hh : hours < 24) (hm : minutes < 60) :
    Int.natAbs ((60 * hours + minutes : Nat) : Int) < 1440 := by
  rw [Int.natAbs_natCast]
  omega

/-- The offset of so many hours and minutes, if a clock has them. -/
def ofNumbers? (west : Bool) (hours minutes : Nat) : Option ZoneOffset :=
  if h : hours < 24 ∧ minutes < 60 then
    let distance : Int := (60 * hours + minutes : Nat)
    have distance_lt : distance.natAbs < 1440 := natAbs_distance_lt h.1 h.2
    some (if west then ⟨-distance, (Int.natAbs_neg distance).symm ▸ distance_lt⟩
      else ⟨distance, distance_lt⟩)
  else none

/-- The seconds of an offset. -/
def seconds (offset : ZoneOffset) : Int := 60 * offset.minutes

end ZoneOffset

/-- The distance of a clock from universal time in seconds, less than 26 hours; positive to the
east. -/
structure ClockOffset where
  /-- The seconds. -/
  seconds : Int
  /-- The distance is less than 26 hours. -/
  seconds_lt : seconds.natAbs < 93600
deriving DecidableEq

namespace ClockOffset

/-- Universal time itself. -/
def universal : ClockOffset := ⟨0, Nat.zero_lt_succ _⟩

/-- The offset of so many seconds, if a clock has it. -/
def ofSeconds? (seconds : Int) : Option ClockOffset :=
  if h : seconds.natAbs < 93600 then some ⟨seconds, h⟩ else none

end ClockOffset

/-- A time as the server wrote it. -/
structure Timestamp where
  /-- The date. -/
  date : Date
  /-- The time of day. -/
  time : TimeOfDay
  /-- The offset, when the server gave one. -/
  offset : Option ZoneOffset
deriving DecidableEq

namespace Timestamp

/-! ## Reading -/

/-- Exactly `width` decimal digits as a number, and what follows them. -/
def number (width : Nat) (cs : List Char) : Option (Nat × List Char) :=
  let digits := cs.take width
  if digits.length = width ∧ digits.all Char.isDigit then
    some (Nat.ofDigitChars 10 digits 0, cs.drop width)
  else none

/-- One given character, and what follows it. -/
def mark (c : Char) : List Char → Option (List Char)
  | [] => none
  | d :: rest => if c = d then some rest else none

/-- The nanoseconds that the digits of a fraction stand for; digits beyond the ninth do not
count. -/
def nanoseconds (digits : List Char) : Nat :=
  Nat.ofDigitChars 10 (digits.take 9) 0 * Nat.pow 10 (9 - digits.length)

/-- An optional fraction of a second of at most `most` digits. -/
def fraction (most : Option Nat) (cs : List Char) : Option (Nat × List Char) :=
  match cs with
  | '.' :: rest =>
    let digits := rest.takeWhile Char.isDigit
    if digits.isEmpty ∨ most.any (· < digits.length) then none
    else some (nanoseconds digits, rest.dropWhile Char.isDigit)
  | _ => some (0, cs)

/-- A clock reading before its numbers are checked. -/
structure Reading where
  /-- The hour. -/
  hour : Nat
  /-- The minute. -/
  minute : Nat
  /-- The second. -/
  second : Nat
  /-- The nanosecond. -/
  nanosecond : Nat

/-- Hours, minutes and seconds between colons, and an optional fraction. -/
def reading (most : Option Nat) (cs : List Char) : Option (Reading × List Char) := do
  let (hour, cs) ← number 2 cs
  let (minute, cs) ← number 2 (← mark ':' cs)
  let (second, cs) ← number 2 (← mark ':' cs)
  let (nanosecond, cs) ← fraction most cs
  return (⟨hour, minute, second, nanosecond⟩, cs)

/-- The time of day of a reading. -/
def Reading.time? (r : Reading) : Option TimeOfDay :=
  TimeOfDay.ofNumbers? r.hour r.minute r.second r.nanosecond

/-- The month and the day of a date, between and behind their dashes. -/
def monthAndDay (cs : List Char) : Option ((Nat × Nat) × List Char) := do
  let (month, cs) ← number 2 (← mark '-' cs)
  let (day, cs) ← number 2 (← mark '-' cs)
  return ((month, day), cs)

/-- An offset: `Z` in either case, or a sign with hours and minutes. Nothing may follow it. -/
def zone (cs : List Char) : Option ZoneOffset :=
  match cs with
  | ['Z'] | ['z'] => some .universal
  | sign :: rest => do
    if sign ≠ '+' ∧ sign ≠ '-' then none
    let (hours, rest) ← number 2 rest
    let (minutes, rest) ← number 2 (← mark ':' rest)
    if !rest.isEmpty then none
    ZoneOffset.ofNumbers? (sign = '-') hours minutes
  | [] => none

/-- The date in universal time of a time with an offset. -/
def universalDate (date : Date) (time : TimeOfDay) (offset : ZoneOffset) : Date :=
  let seconds := (time.seconds : Int) - offset.seconds
  if seconds < 0 then date.pred
  else if 86400 ≤ seconds then date.succ
  else date

/-- Whether the second that follows a time is a leap second: in universal time it is the last second
of a month. -/
def precedesLeapSecond (date : Date) (time : TimeOfDay) (offset : ZoneOffset) : Bool :=
  let seconds := ((time.seconds : Int) - offset.seconds) % 86400
  seconds = 86399 && (universalDate date time offset).endsMonth

/-- The form with an offset: a year of four digits, and any one basic character between date and
time. -/
def ofZonedText? (cs : List Char) : Option Timestamp := do
  let (year, cs) ← number 4 cs
  let ((month, day), cs) ← monthAndDay cs
  let date ← Date.ofNumbers? year month day
  match cs with
  | [] => none
  | between :: cs =>
    if 0x80 ≤ between.toNat then none
    let (r, cs) ← reading none cs
    let offset ← zone cs
    if r.second = 60 then
      let time ← TimeOfDay.ofNumbers? r.hour r.minute 59 999999999
      if precedesLeapSecond date time offset then return ⟨date, time, some offset⟩ else none
    else
      return ⟨date, ← r.time?, some offset⟩

/-- The form without an offset: a year of four digits with an optional sign, and a `T` between date
and time. A fraction has at most 32 digits. -/
def ofLocalText? (cs : List Char) : Option Timestamp := do
  let (negative, cs) : Bool × List Char :=
    match cs with
    | '-' :: rest => (true, rest)
    | '+' :: rest => (false, rest)
    | rest => (false, rest)
  let (year, cs) ← number 4 cs
  let ((month, day), cs) ← monthAndDay cs
  let date ← Date.ofNumbers? (if negative then -(year : Int) else year) month day
  let (r, cs) ← reading (some 32) (← mark 'T' cs)
  if !cs.isEmpty then none
  return ⟨date, ← r.time?, none⟩

/-- A time in either form. -/
def parse? (text : String) : Option Timestamp :=
  (ofZonedText? text.toList).or (ofLocalText? text.toList)

/-! ## Writing -/

/-- A number with zeros in front of it up to a width. -/
def padded (width n : Nat) : List Char :=
  let digits := Decimal.digitText n
  List.replicate (width - digits.length) '0' ++ digits

/-- An offset: `Z` for universal time, otherwise a sign with hours and minutes. -/
def zoneText (offset : ZoneOffset) : List Char :=
  if offset.minutes = 0 then ['Z']
  else
    let distance := offset.minutes.natAbs
    (if offset.minutes < 0 then '-' else '+') ::
      (padded 2 (distance / 60) ++ ':' :: padded 2 (distance % 60))

/-- The date. -/
def dateText (date : Date) : List Char :=
  (if date.year < 0 then ['-'] else []) ++ padded 4 date.year.natAbs ++
    '-' :: padded 2 date.month ++ '-' :: padded 2 date.day

/-- The time of day, with the digits of its fraction that are needed. -/
def timeText (time : TimeOfDay) : List Char :=
  padded 2 time.hour ++ ':' :: padded 2 time.minute ++ ':' :: padded 2 time.second ++
    (if time.nanosecond = 0 then [] else '.' :: Duration.fractionDigits 9 time.nanosecond)

/-- The text of a time, if it has one: the form with an offset has years of four digits only. -/
def text? (t : Timestamp) : Option String :=
  if t.offset.isSome ∧ (t.date.year < 0 ∨ 9999 < t.date.year) then none
  else
    some <| String.ofList <|
      dateText t.date ++ 'T' :: timeText t.time ++ (t.offset.map zoneText).getD []

/-- The text of a time. -/
def text (t : Timestamp) : String := t.text?.getD ""

instance : ToString Timestamp := ⟨text⟩

/-! ## Instants -/

/-- The offset in seconds, or that of a given clock where the server gave none. -/
def offsetSeconds (t : Timestamp) (fallback : ClockOffset) : Int :=
  (t.offset.map ZoneOffset.seconds).getD fallback.seconds

/-- The nanoseconds since the beginning of 1970 in universal time. -/
def unixNanoseconds (t : Timestamp) (fallback : ClockOffset) : Int :=
  (86400 * t.date.unixDay + t.time.seconds - t.offsetSeconds fallback) * 1000000000 +
    t.time.nanosecond

end Timestamp

end CavityConsole

import CavityConsole.Proofs.Time.Days

/-!
# Times stand for instants

The instant of a time is its distance from the beginning of 1970 in universal time. The days up to
its date are those of the calendar (`Date.countedDays`), and the clock that it was read from is
ahead of universal time by its offset, which is the one that was written or, where none was, that of
a given clock.

**The law** (`unixNanoseconds_counted`): this distance in nanoseconds, and what follows from it. A
given clock matters only where no offset was written, and then it moves the instant by its own
difference; on clocks with one offset the instants are in the order of their numbers from the year
down to the nanosecond.
-/

namespace CavityConsole

/-- The nanoseconds since midnight. -/
def TimeOfDay.nanoseconds (time : TimeOfDay) : Int := time.seconds * 1000000000 + time.nanosecond

/-- Times of day are in the order of hour, minute, second and nanosecond. -/
theorem TimeOfDay.nanoseconds_lt_iff (a b : TimeOfDay) :
    a.nanoseconds < b.nanoseconds ↔
      a.hour < b.hour ∨ a.hour = b.hour ∧ (a.minute < b.minute ∨ a.minute = b.minute ∧
        (a.second < b.second ∨ a.second = b.second ∧ a.nanosecond < b.nanosecond)) := by
  have := a.minute_lt
  have := a.second_lt
  have := a.nanosecond_lt
  have := b.minute_lt
  have := b.second_lt
  have := b.nanosecond_lt
  unfold nanoseconds seconds
  omega

theorem TimeOfDay.nanoseconds_eq_iff (a b : TimeOfDay) :
    a.nanoseconds = b.nanoseconds ↔
      a.hour = b.hour ∧ a.minute = b.minute ∧ a.second = b.second ∧
        a.nanosecond = b.nanosecond := by
  have hless := mt (nanoseconds_lt_iff a b).mpr
  have hmore := mt (nanoseconds_lt_iff b a).mpr
  constructor
  · intro h
    omega
  · rintro ⟨hhour, hminute, hsecond, hnanosecond⟩
    rw [nanoseconds, nanoseconds, seconds, seconds, hhour, hminute, hsecond, hnanosecond]

/-- A day has 86400 seconds. -/
theorem TimeOfDay.nanoseconds_bounds (time : TimeOfDay) :
    0 ≤ time.nanoseconds ∧ time.nanoseconds < 86400000000000 := by
  have := time.hour_lt
  have := time.minute_lt
  have := time.second_lt
  have := time.nanosecond_lt
  unfold nanoseconds seconds
  omega

namespace Timestamp

/-- The numbers of a time, the largest unit first. -/
def parts (t : Timestamp) : List Int :=
  [t.date.year, t.date.month, t.date.day, t.time.hour, t.time.minute, t.time.second,
    t.time.nanosecond]

/-- The seconds that the clock of a time is ahead of universal time. -/
def ahead (t : Timestamp) (fallback : ClockOffset) : Int :=
  match t.offset with
  | some offset => 60 * offset.minutes
  | none => fallback.seconds

theorem offsetSeconds_eq (t : Timestamp) (fallback : ClockOffset) :
    t.offsetSeconds fallback = t.ahead fallback := by
  unfold offsetSeconds ahead
  cases t.offset <;> rfl

/-- Times are in the order of their dates, and on one day in that of their times of day. -/
theorem parts_lt_iff (t u : Timestamp) :
    t.parts < u.parts ↔
      t.date.unixDay < u.date.unixDay ∨
        t.date.unixDay = u.date.unixDay ∧ t.time.nanoseconds < u.time.nanoseconds := by
  rw [Date.unixDay_lt_iff, Date.unixDay_eq_iff, TimeOfDay.nanoseconds_lt_iff]
  simp only [parts, List.cons_lt_cons_iff, Nat.cast_lt, Nat.cast_inj, List.not_lt_nil, and_false,
    or_false]
  tauto

theorem parts_eq_iff (t u : Timestamp) :
    t.parts = u.parts ↔
      t.date.unixDay = u.date.unixDay ∧ t.time.nanoseconds = u.time.nanoseconds := by
  rw [Date.unixDay_eq_iff, TimeOfDay.nanoseconds_eq_iff]
  simp only [parts, List.cons.injEq, Nat.cast_inj, and_true, and_assoc]

/-- An instant is a day, a time of day and the distance of the clock. -/
theorem unixNanoseconds_eq (t : Timestamp) (fallback : ClockOffset) :
    t.unixNanoseconds fallback =
      86400000000000 * t.date.unixDay + t.time.nanoseconds - t.ahead fallback * 1000000000 := by
  rw [unixNanoseconds, offsetSeconds_eq, TimeOfDay.nanoseconds]
  omega

/-- **On clocks with one offset instants are in the order of their numbers.** -/
theorem unixNanoseconds_lt_iff {t u : Timestamp} {fallback other : ClockOffset}
    (h : t.ahead fallback = u.ahead other) :
    t.unixNanoseconds fallback < u.unixNanoseconds other ↔ t.parts < u.parts := by
  have ht := t.time.nanoseconds_bounds
  have hu := u.time.nanoseconds_bounds
  rw [parts_lt_iff, unixNanoseconds_eq, unixNanoseconds_eq, h, Int.sub_lt_sub_right_iff]
  exact lt_iff_of_parts (fun day : Int => 86400000000000 * day) ht.1 hu.1
    (fun hday => by omega) (fun hday => by omega)

/-- On clocks with one offset no two times are one instant. -/
theorem unixNanoseconds_eq_iff {t u : Timestamp} {fallback other : ClockOffset}
    (h : t.ahead fallback = u.ahead other) :
    t.unixNanoseconds fallback = u.unixNanoseconds other ↔ t.parts = u.parts := by
  have ht := t.time.nanoseconds_bounds
  have hu := u.time.nanoseconds_bounds
  rw [parts_eq_iff, unixNanoseconds_eq, unixNanoseconds_eq, h]
  omega

/-- **Times stand for the right instants.** An instant is counted by the days of the calendar, the
time of day and the distance of the clock. A given clock does not matter where an offset was
written, and moves the instant back by as much as it is ahead where none was. On clocks with one
offset, instants are in the order of the numbers of their times, and no two times are one instant. -/
theorem unixNanoseconds_counted :
    (∀ (t : Timestamp) (fallback : ClockOffset),
      t.unixNanoseconds fallback =
        1000000000 * (86400 * t.date.countedDays +
          (3600 * t.time.hour + 60 * t.time.minute + t.time.second) - t.ahead fallback) +
          t.time.nanosecond) ∧
      (∀ (t : Timestamp) (offset : ZoneOffset), t.offset = some offset →
        ∀ fallback other, t.unixNanoseconds fallback = t.unixNanoseconds other) ∧
      (∀ t : Timestamp, t.offset = none → ∀ fallback other,
        t.unixNanoseconds other =
          t.unixNanoseconds fallback - (other.seconds - fallback.seconds) * 1000000000) ∧
      ∀ (t u : Timestamp) (fallback other : ClockOffset), t.ahead fallback = u.ahead other →
        (t.unixNanoseconds fallback < u.unixNanoseconds other ↔ t.parts < u.parts) ∧
          (t.unixNanoseconds fallback = u.unixNanoseconds other ↔ t.parts = u.parts) := by
  refine ⟨fun t fallback => ?_, fun t offset h fallback other => ?_, fun t h fallback other => ?_,
    fun t u fallback other h => ⟨unixNanoseconds_lt_iff h, unixNanoseconds_eq_iff h⟩⟩
  · rw [unixNanoseconds_eq, Date.unixDay_eq_countedDays, TimeOfDay.nanoseconds, TimeOfDay.seconds]
    omega
  · rw [unixNanoseconds_eq, unixNanoseconds_eq, ahead, ahead, h]
  · rw [unixNanoseconds_eq, unixNanoseconds_eq, ahead, ahead, h]
    dsimp only
    omega

/-- The end of the leap day of the year minus four, as a reading of a clock. -/
def leapDay : Timestamp :=
  ⟨⟨-4, 2, 29, by decide, by decide⟩,
    ⟨23, 59, 59, 500000000, by decide, by decide, by decide, by decide⟩, none⟩

/-- The day after it. -/
def afterLeapDay : Timestamp :=
  ⟨⟨-4, 3, 1, by decide, by decide⟩, ⟨0, 0, 0, 0, by decide, by decide, by decide, by decide⟩, none⟩

/-- The first of March on a clock an hour ahead, where universal time still has the leap day. -/
def firstOfMarch : Timestamp :=
  ⟨⟨1972, 3, 1, by decide, by decide⟩,
    ⟨0, 30, 0, 0, by decide, by decide, by decide, by decide⟩, some ⟨60, by decide⟩⟩

theorem unixNanoseconds_counted_leapDay :
    (parse? "-0004-02-29T23:59:59.5" = some leapDay ∧
        parse? "-0004-03-01T00:00:00" = some afterLeapDay ∧
        parse? "1972-03-01T00:30:00+01:00" = some firstOfMarch) ∧
      leapDay.date.countedDays = -720930 ∧
      (∀ fallback : ClockOffset,
        leapDay.unixNanoseconds fallback =
          -62288265600500000000 - fallback.seconds * 1000000000) ∧
      (∀ fallback : ClockOffset,
        leapDay.unixNanoseconds fallback < afterLeapDay.unixNanoseconds fallback) ∧
      ∀ fallback : ClockOffset,
        firstOfMarch.unixNanoseconds fallback = 68254200000000000 := by
  obtain ⟨counted, written, moved, ordered⟩ := unixNanoseconds_counted
  have days : leapDay.date.countedDays = -720930 := by decide +kernel
  refine ⟨⟨rfl, rfl, rfl⟩, days, fun fallback => ?_, fun fallback => ?_, fun fallback => ?_⟩
  · rw [moved leapDay rfl .universal fallback, counted leapDay .universal, days]
    show -62288265600500000000 - (fallback.seconds - 0) * 1000000000 = _
    rw [Int.sub_zero]
  · exact (ordered leapDay afterLeapDay fallback fallback rfl).1.mpr (by decide)
  · rw [written firstOfMarch _ rfl fallback .universal, counted firstOfMarch .universal]
    decide +kernel

end Timestamp

end CavityConsole

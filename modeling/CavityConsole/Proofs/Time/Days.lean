import CavityConsole.Proofs.Time.RoundTrip
import Mathlib.Order.Defs.LinearOrder
import Mathlib.Tactic.IntervalCases

/-!
# Days are counted as the calendar has them

The calendar is given by the rule of leap years (`IsLeap`) and the lengths of the months
(`monthLengths`). From these the days are counted year by year and month by month
(`Date.countedDays`), and the closed form gives the same number for every year, also before the year
zero.

* `unixDay_eq_countedDays`: the number of a day is the count;
* `unixDay_succ`, `unixDay_pred`: the day after has the next number, the day before the one before;
* `unixDay_lt_iff`: days are in the order of year, month and day, so no two have one number.

Where something is counted in larger and smaller units, the order is the lexicographic one as long
as no remainder reaches the next larger unit (`lt_iff_of_parts`).
-/

namespace CavityConsole

/-! ## Larger and smaller units -/

/-- Numbers that are put together from a place and a remainder are in lexicographic order when the
remainder of a place stays before every later place. -/
theorem lt_iff_of_parts {ι : Type} [LinearOrder ι] (start : ι → Int) {a b : ι} {r s : Int}
    (hr : 0 ≤ r) (hs : 0 ≤ s) (hbefore : a < b → start a + r < start b)
    (hbehind : b < a → start b + s < start a) :
    start a + r < start b + s ↔ a < b ∨ a = b ∧ r < s := by
  rcases lt_trichotomy a b with hlt | rfl | hgt
  · have hstart := hbefore hlt
    exact ⟨fun _ => .inl hlt, fun _ => by omega⟩
  · rw [Int.add_lt_add_iff_left]
    exact ⟨fun h => .inr ⟨rfl, h⟩, fun h => h.elim (absurd · (lt_irrefl a)) And.right⟩
  · have hstart := hbehind hgt
    refine ⟨fun h => by omega, fun h => ?_⟩
    rcases h with h | ⟨rfl, -⟩
    · exact absurd h (lt_asymm hgt)
    · exact absurd hgt (lt_irrefl a)

namespace Calendar

/-! ## The calendar -/

/-- The years with a leap day: every fourth year, but of the hundredth ones only every fourth. -/
def IsLeap (year : Int) : Prop := 4 ∣ year ∧ (100 ∣ year → 400 ∣ year)

instance (year : Int) : Decidable (IsLeap year) := inferInstanceAs (Decidable (_ ∧ _))

/-- The lengths of the months of a year, in their order. -/
def monthLengths (year : Int) : List Nat :=
  [31, if IsLeap year then 29 else 28, 31, 30, 31, 30, 31, 31, 30, 31, 30, 31]

/-- The calendar has a day with these numbers. -/
def HasDay (year : Int) (month day : Nat) : Prop :=
  1 ≤ month ∧ 1 ≤ day ∧ ∃ length, (monthLengths year)[month - 1]? = some length ∧ day ≤ length

theorem isLeapYear_iff {year : Int} : isLeapYear year = true ↔ IsLeap year := by
  simp only [isLeapYear, IsLeap, Bool.and_eq_true, Bool.or_eq_true, decide_eq_true_eq, bne_iff_ne]
  omega

theorem monthLengths_getElem? (year : Int) {month : Nat} (h : 1 ≤ month ∧ month ≤ 12) :
    (monthLengths year)[month - 1]? = some (monthLength year month) := by
  obtain ⟨hleast, hmost⟩ := h
  interval_cases month <;> simp [monthLengths, monthLength, isLeapYear_iff]

theorem monthLength_pos (year : Int) {month : Nat} (h : 1 ≤ month ∧ month ≤ 12) :
    1 ≤ monthLength year month := by
  obtain ⟨hleast, hmost⟩ := h
  interval_cases month <;> simp only [monthLength] <;> first | decide | split <;> decide

theorem hasDay_iff {year : Int} {month day : Nat} :
    HasDay year month day ↔
      (1 ≤ month ∧ month ≤ 12) ∧ 1 ≤ day ∧ day ≤ monthLength year month := by
  constructor
  · rintro ⟨hmonth, hday, length, hlength, hle⟩
    have hmost : month - 1 < 12 := (List.getElem?_eq_some_iff.mp hlength).1
    have hmonths : 1 ≤ month ∧ month ≤ 12 := ⟨hmonth, by omega⟩
    rw [monthLengths_getElem? year hmonths] at hlength
    cases hlength
    exact ⟨hmonths, hday, hle⟩
  · rintro ⟨hmonths, hday, hle⟩
    exact ⟨hmonths.1, hday, _, monthLengths_getElem? year hmonths, hle⟩

/-! ## Years -/

/-- The days of so many years from a first one on. -/
def daysOfYears (first : Int) : Nat → Nat
  | 0 => 0
  | count + 1 => daysOfYears first count + if IsLeap (first + count) then 366 else 365

/-- The days from the first day of 1970 to that of another year, counted year by year. -/
def daysToYear (year : Int) : Int :=
  daysOfYears 1970 (year - 1970).toNat - daysOfYears year (1970 - year).toNat

/-- A year has the days of its length. -/
theorem daysBeforeYear_succ (year : Int) :
    daysBeforeYear (year + 1) = daysBeforeYear year + yearLength year := by
  have hleap := @isLeapYear_iff year
  unfold IsLeap at hleap
  unfold daysBeforeYear yearLength
  split
  next h =>
    have hrule := hleap.mp h
    omega
  next h =>
    have hrule := mt hleap.mpr h
    omega

theorem yearLength_eq (year : Int) : yearLength year = if IsLeap year then 366 else 365 := by
  simp only [yearLength, isLeapYear_iff]

theorem daysBeforeYear_add (first : Int) (count : Nat) :
    daysBeforeYear (first + count) = daysBeforeYear first + daysOfYears first count := by
  induction count with
  | zero => simp [daysOfYears]
  | succ count ih =>
    have hnext : first + (count + 1 : Nat) = first + count + 1 := by omega
    rw [hnext, daysBeforeYear_succ, ih, daysOfYears, yearLength_eq]
    omega

theorem daysToYear_eq (year : Int) :
    daysToYear year = daysBeforeYear year - daysBeforeYear 1970 := by
  rw [daysToYear]
  rcases Int.le_total 1970 year with h | h
  · obtain ⟨count, rfl⟩ := Int.le.dest h
    have hnone : (1970 - (1970 + count : Int)).toNat = 0 := by omega
    have hcount : (1970 + (count : Int) - 1970).toNat = count := by omega
    rw [hnone, hcount, daysBeforeYear_add, daysOfYears]
    omega
  · obtain ⟨count, hyear⟩ := Int.le.dest h
    have hnone : (year - 1970).toNat = 0 := by omega
    have hcount : (1970 - year).toNat = count := by omega
    rw [hnone, hcount, ← hyear, daysBeforeYear_add, daysOfYears]
    omega

/-- A later year starts behind the last day of an earlier one. -/
theorem daysBeforeYear_add_le {a b : Int} (h : a < b) :
    daysBeforeYear a + yearLength a ≤ daysBeforeYear b := by
  obtain ⟨count, rfl⟩ := Int.le.dest (Int.add_one_le_of_lt h)
  rw [daysBeforeYear_add, daysBeforeYear_succ]
  omega

/-! ## Months -/

/-- The days of the first so many months of a year. -/
def daysOfMonths (year : Int) : Nat → Nat
  | 0 => 0
  | count + 1 => daysOfMonths year count + ((monthLengths year)[count]?).getD 0

theorem daysBeforeMonth_succ (year : Int) {month : Nat} (h : 1 ≤ month) :
    daysBeforeMonth year (month + 1) = daysBeforeMonth year month + monthLength year month := by
  obtain ⟨before, rfl⟩ := Nat.exists_eq_add_of_le h
  have hmonths : 1 + before + 1 - 1 = before + 1 := by omega
  rw [daysBeforeMonth, hmonths, List.range'_1_concat, List.foldl_append]
  rw [daysBeforeMonth, Nat.add_sub_cancel_left]
  rfl

theorem daysBeforeMonth_eq (year : Int) {before : Nat} (h : before ≤ 12) :
    daysBeforeMonth year (before + 1) = daysOfMonths year before := by
  induction before with
  | zero => rfl
  | succ before ih =>
    have hlength : (monthLengths year)[before]? = some (monthLength year (before + 1)) :=
      monthLengths_getElem? year ⟨Nat.le_add_left 1 before, h⟩
    rw [daysBeforeMonth_succ year (by omega), ih (by omega), daysOfMonths, hlength,
      Option.getD_some]

/-- A later month starts behind the last day of an earlier one. -/
theorem daysBeforeMonth_add_le (year : Int) {a b : Nat} (ha : 1 ≤ a) (h : a < b) :
    daysBeforeMonth year a + monthLength year a ≤ daysBeforeMonth year b := by
  induction b, h using Nat.le_induction with
  | base => exact (daysBeforeMonth_succ year ha).ge
  | succ b hb ih =>
    rw [daysBeforeMonth_succ year (by omega)]
    omega

/-- The months fill the year. -/
theorem daysBeforeMonth_thirteen (year : Int) : daysBeforeMonth year 13 = yearLength year := by
  rw [daysBeforeMonth_eq year (Nat.le_refl 12), yearLength]
  simp only [daysOfMonths, monthLengths, isLeapYear_iff]
  split <;> rfl

end Calendar

/-! ## Days -/

namespace Date

open Calendar

/-- The days from the first day of 1970, counted year by year and month by month. -/
def countedDays (date : Date) : Int :=
  daysToYear date.year + daysOfMonths date.year (date.month - 1) + (date.day - 1 : Nat)

/-- **The number of a day is the count of the days before it.** -/
theorem unixDay_eq_countedDays (date : Date) : date.unixDay = date.countedDays := by
  obtain ⟨hleast, hmost⟩ := date.month_range
  have hmonth : date.month - 1 + 1 = date.month := by omega
  have hmonths := daysBeforeMonth_eq date.year (show date.month - 1 ≤ 12 by omega)
  rw [hmonth] at hmonths
  rw [unixDay, dayNumber, countedDays, daysToYear_eq, hmonths]
  omega

/-- The days of the year before a day. -/
def daysOfYear (date : Date) : Nat := daysBeforeMonth date.year date.month + (date.day - 1)

theorem unixDay_eq (date : Date) :
    date.unixDay = daysBeforeYear date.year + date.daysOfYear - daysBeforeYear 1970 := by
  rw [unixDay, dayNumber, daysOfYear]
  omega

theorem daysOfYear_lt (date : Date) : date.daysOfYear < yearLength date.year := by
  obtain ⟨hleast, hmost⟩ := date.month_range
  obtain ⟨hfirst, hlast⟩ := date.day_range
  have hbehind := daysBeforeMonth_add_le date.year hleast (Nat.lt_succ_of_le hmost)
  rw [daysBeforeMonth_thirteen] at hbehind
  rw [daysOfYear]
  omega

/-- **Days are in the order of their numbers**: year, month, day. -/
theorem unixDay_lt_iff (d e : Date) :
    d.unixDay < e.unixDay ↔
      d.year < e.year ∨
        d.year = e.year ∧ (d.month < e.month ∨ d.month = e.month ∧ d.day < e.day) := by
  have hd := d.daysOfYear_lt
  have he := e.daysOfYear_lt
  rw [unixDay_eq, unixDay_eq, Int.sub_lt_sub_right_iff,
    lt_iff_of_parts daysBeforeYear (by omega) (by omega)
      (fun h => by have := daysBeforeYear_add_le h; omega)
      (fun h => by have := daysBeforeYear_add_le h; omega)]
  refine or_congr_right (and_congr_right fun hyear => ?_)
  obtain ⟨hdFirst, hdLast⟩ := d.day_range
  obtain ⟨heFirst, heLast⟩ := e.day_range
  rw [hyear] at hdLast
  have hparts : (daysBeforeMonth e.year d.month : Int) + (d.day - 1 : Nat) <
        daysBeforeMonth e.year e.month + (e.day - 1 : Nat) ↔
      d.month < e.month ∨ d.month = e.month ∧ ((d.day - 1 : Nat) : Int) < (e.day - 1 : Nat) :=
    lt_iff_of_parts (fun month => (daysBeforeMonth e.year month : Int)) (by omega) (by omega)
      (fun h => by have := daysBeforeMonth_add_le e.year d.month_range.1 h; omega)
      (fun h => by have := daysBeforeMonth_add_le e.year e.month_range.1 h; omega)
  have hday : ((d.day - 1 : Nat) : Int) < (e.day - 1 : Nat) ↔ d.day < e.day := by omega
  rw [hday] at hparts
  rw [← hparts, daysOfYear, daysOfYear, hyear]
  omega

/-- No two days have one number. -/
theorem unixDay_injective {d e : Date} (h : d.unixDay = e.unixDay) : d = e := by
  have hbefore := mt (unixDay_lt_iff d e).mpr (by omega)
  have hbehind := mt (unixDay_lt_iff e d).mpr (by omega)
  have hyear : d.year = e.year := by omega
  have hmonth : d.month = e.month := by omega
  have hday : d.day = e.day := by omega
  cases d
  cases e
  cases hyear
  cases hmonth
  cases hday
  rfl

/-- A day is given by its numbers. -/
theorem unixDay_eq_iff {d e : Date} :
    d.unixDay = e.unixDay ↔ d.year = e.year ∧ d.month = e.month ∧ d.day = e.day := by
  constructor
  · intro h
    rw [unixDay_injective h]
    exact ⟨rfl, rfl, rfl⟩
  · rintro ⟨hyear, hmonth, hday⟩
    rw [unixDay_eq, unixDay_eq, daysOfYear, daysOfYear, hyear, hmonth, hday]

/-! ## The day before and the day after -/

theorem ofNumbers?_eq_none_iff {year : Int} {month day : Nat} :
    ofNumbers? year month day = none ↔ ¬ HasDay year month day := by
  rw [hasDay_iff, ofNumbers?]
  split
  next hmonth =>
    split
    next hday => exact iff_of_false (Option.some_ne_none _) (not_not_intro ⟨hmonth, hday⟩)
    next hday => exact iff_of_true rfl fun h => hday h.2
  next hmonth => exact iff_of_true rfl fun h => hmonth h.1

/-- The calendar has a day when there is a date with its numbers. -/
theorem hasDay_iff_exists {year : Int} {month day : Nat} :
    HasDay year month day ↔
      ∃ date : Date, date.year = year ∧ date.month = month ∧ date.day = day := by
  simp_rw [← ofNumbers?_eq_some_iff, ← Option.isSome_iff_exists, ← Option.ne_none_iff_isSome, ne_eq,
    ofNumbers?_eq_none_iff, not_not]

/-- The last day of a month. -/
def IsLastOfMonth (date : Date) : Prop :=
  (monthLengths date.year)[date.month - 1]? = some date.day

theorem endsMonth_iff {date : Date} : date.endsMonth = true ↔ date.IsLastOfMonth := by
  rw [IsLastOfMonth, monthLengths_getElem? _ date.month_range, endsMonth, beq_iff_eq,
    Option.some.injEq, eq_comm]

theorem daysOfYear_december {date : Date} (hmonth : date.month = 12) (hday : date.day = 31) :
    date.daysOfYear + 1 = yearLength date.year := by
  have hbehind := daysBeforeMonth_succ date.year (show 1 ≤ 12 by decide)
  rw [daysBeforeMonth_thirteen, show monthLength date.year 12 = 31 from rfl] at hbehind
  rw [daysOfYear, hmonth, hday]
  omega

theorem unixDay_of_numbers {year : Int} {month day : Nat} {date : Date}
    (h : ofNumbers? year month day = some date) :
    date.unixDay = daysBeforeYear year + (daysBeforeMonth year month + (day - 1) : Nat) -
      daysBeforeYear 1970 := by
  obtain ⟨rfl, rfl, rfl⟩ := ofNumbers?_eq_some_iff.mp h
  exact unixDay_eq date

/-- **The day after has the next number.** -/
theorem unixDay_succ (date : Date) : date.succ.unixDay = date.unixDay + 1 := by
  obtain ⟨hleast, hmost⟩ := date.month_range
  obtain ⟨hfirst, hlast⟩ := date.day_range
  unfold succ
  split
  next next hnext =>
    rw [unixDay_of_numbers hnext, unixDay_eq, daysOfYear]
    omega
  next hnone =>
    rw [ofNumbers?_eq_none_iff, hasDay_iff] at hnone
    have hend : date.day = monthLength date.year date.month := by omega
    split
    next next hnext =>
      have hmonths := daysBeforeMonth_succ date.year hleast
      rw [unixDay_of_numbers hnext, unixDay_eq, daysOfYear]
      omega
    next hnone' =>
      rw [ofNumbers?_eq_none_iff, hasDay_iff] at hnone'
      have hmonth : date.month = 12 := by
        by_contra hless
        have hmonths : 1 ≤ date.month + 1 ∧ date.month + 1 ≤ 12 := by omega
        exact hnone' ⟨hmonths, Nat.le_refl 1, monthLength_pos date.year hmonths⟩
      have hday : date.day = 31 := by rw [hend, hmonth]; rfl
      have hyears := daysBeforeYear_succ date.year
      have hdecember := daysOfYear_december hmonth hday
      rw [unixDay_eq, unixDay_eq]
      show daysBeforeYear (date.year + 1) + ((0 : Nat) : Int) - _ = _
      omega

/-- **The day before has the number before.** -/
theorem unixDay_pred (date : Date) : date.pred.unixDay = date.unixDay - 1 := by
  obtain ⟨hleast, hmost⟩ := date.month_range
  obtain ⟨hfirst, hlast⟩ := date.day_range
  unfold pred
  split
  next before hbefore =>
    have hday := (ofNumbers?_eq_some_iff.mp hbefore).2.2
    have hrange := before.day_range.1
    rw [unixDay_of_numbers hbefore, unixDay_eq, daysOfYear]
    omega
  next hnone =>
    rw [ofNumbers?_eq_none_iff, hasDay_iff] at hnone
    have hstart : date.day = 1 := by omega
    dsimp only
    split
    next before hbefore =>
      have hmonth := (ofNumbers?_eq_some_iff.mp hbefore).2.1
      have hrange := before.month_range
      have hmonths := daysBeforeMonth_succ date.year (show 1 ≤ date.month - 1 by omega)
      have hlength := monthLength_pos date.year before.month_range
      rw [hmonth] at hlength
      rw [Nat.sub_add_cancel hleast] at hmonths
      rw [unixDay_of_numbers hbefore, unixDay_eq, daysOfYear]
      omega
    next hnone' =>
      rw [ofNumbers?_eq_none_iff, hasDay_iff] at hnone'
      have hmonth : date.month = 1 := by
        by_contra hmore
        have hmonths : 1 ≤ date.month - 1 ∧ date.month - 1 ≤ 12 := by omega
        exact hnone' ⟨hmonths, monthLength_pos date.year hmonths, Nat.le_refl _⟩
      have hyears := daysBeforeYear_succ (date.year - 1)
      rw [Int.sub_add_cancel] at hyears
      let december : Date := ⟨date.year - 1, 12, 31, by decide, by simp [monthLength]⟩
      have hdecember : december.daysOfYear + 1 = yearLength (date.year - 1) :=
        daysOfYear_december rfl rfl
      have hnewYear : date.daysOfYear = 0 := by
        rw [daysOfYear, hmonth, hstart]
        rfl
      show december.unixDay = _
      rw [unixDay_eq, unixDay_eq, hnewYear]
      show daysBeforeYear (date.year - 1) + _ - _ = _
      omega

end Date

end CavityConsole

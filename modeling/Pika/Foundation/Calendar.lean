import Mathlib.Logic.Function.Iterate
import Mathlib.Order.Monotone.Basic

/-!
# The proleptic Gregorian calendar

A date is a year, a month of it and a day of that month, with its successor.
Days are numbered so that each date has the number behind that of the date
before it; the number of days from one date to another is then a difference.
Fields outside their ranges count on from the first day of their month.
-/

namespace Pika.Foundation

/-- The years with a 29 February. -/
def leapYear (year : Int) : Bool := year % 4 = 0 && (year % 100 ≠ 0 || year % 400 = 0)

/-- The days a leap year has more. -/
def leapDay (year : Int) : Nat := if leapYear year then 1 else 0

/-- The days of a month. -/
def monthLength (year : Int) : Nat → Nat
  | 2 => 28 + leapDay year
  | 4 => 30
  | 6 => 30
  | 9 => 30
  | 11 => 30
  | _ => 31

/-- A date of the calendar. -/
@[ext] structure Date where
  year : Int
  month : Nat
  day : Nat
  month_range : 1 ≤ month ∧ month ≤ 12
  /-- Days are numbered from one. -/
  day_range : 1 ≤ day ∧ day ≤ monthLength year month
  deriving DecidableEq

/-- The days of a year before a month that is numbered from zero. -/
def daysBefore (year : Int) : Nat → Nat
  | 0 => 0
  | month + 1 => daysBefore year month + monthLength year (month + 1)

/-- The number of the first day of a year. -/
def yearStart (year : Int) : Int :=
  365 * year + ((year - 1) / 4 - (year - 1) / 100 + (year - 1) / 400)

/-- The number of a day whose month is numbered from zero.  Months outside the
year belong to other years, and days outside the month to other months. -/
def normalizedDay (year month day : Int) : Int :=
  yearStart (year + month / 12) + daysBefore (year + month / 12) (month % 12).toNat + (day - 1)

theorem monthLength_pos (year : Int) (month : Nat) : 1 ≤ monthLength year month := by
  unfold monthLength
  split <;> omega

theorem daysBefore_twelve (year : Int) : daysBefore year 12 = 365 + leapDay year := by
  simp only [daysBefore, monthLength]
  omega

theorem leapDay_eq_ite (year : Int) :
    leapDay year = if year % 4 = 0 ∧ (year % 100 ≠ 0 ∨ year % 400 = 0) then 1 else 0 := by
  simp [leapDay, leapYear]

theorem yearStart_succ (year : Int) :
    yearStart (year + 1) = yearStart year + daysBefore year 12 := by
  rw [daysBefore_twelve, leapDay_eq_ite]
  unfold yearStart
  split_ifs <;> omega

theorem yearStart_le_yearStart (ordered : first ≤ second) :
    yearStart first ≤ yearStart second := by
  unfold yearStart
  omega

theorem daysBefore_monotone (year : Int) : Monotone (daysBefore year) :=
  monotone_nat_of_le_succ fun _ => Nat.le_add_right _ _

theorem normalizedDay_natCast {month : Nat} (inYear : month ≤ 12) (year day : Int) :
    normalizedDay year month day = yearStart year + daysBefore year month + (day - 1) := by
  rw [normalizedDay]
  by_cases last : month = 12
  · rw [last]
    change yearStart (year + 1) + 0 + (day - 1) = _
    rw [yearStart_succ, Int.add_zero]
  · have sameYear : year + (month : Int) / 12 = year := by omega
    have sameMonth : ((month : Int) % 12).toNat = month := by omega
    rw [sameYear, sameMonth]

/-- Years differ in their leap day. -/
theorem daysBefore_eq (year : Int) (month : Nat) :
    daysBefore year month = daysBefore 1 month + if 2 ≤ month then leapDay year else 0 := by
  induction month with
  | zero => rfl
  | succ month ih =>
    rw [daysBefore, daysBefore, ih]
    by_cases february : month = 1
    · rw [february]
      simp only [monthLength]
      have common : leapDay 1 = 0 := by decide
      rw [common]
      simp
      omega
    · have same : monthLength year (month + 1) = monthLength 1 (month + 1) := by
        unfold monthLength
        split <;> first | rfl | omega
      rw [same]
      split_ifs <;> omega

namespace Date

/-- The date behind a date. -/
def next (date : Date) : Date :=
  if inMonth : date.day < monthLength date.year date.month then
    { date with day := date.day + 1, day_range := ⟨Nat.le_add_left 1 _, inMonth⟩ }
  else if inYear : date.month < 12 then
    { year := date.year
      month := date.month + 1
      day := 1
      month_range := ⟨Nat.le_add_left 1 _, inYear⟩
      day_range := ⟨Nat.le_refl 1, monthLength_pos _ _⟩ }
  else
    { year := date.year + 1
      month := 1
      day := 1
      month_range := by decide
      day_range := ⟨Nat.le_refl 1, monthLength_pos _ _⟩ }

/-- The number of the day. -/
def dayNumber (date : Date) : Int := normalizedDay date.year (date.month - 1) date.day

theorem dayNumber_eq (date : Date) :
    date.dayNumber = yearStart date.year + daysBefore date.year (date.month - 1) +
        (date.day - 1) := by
  obtain ⟨lower, upper⟩ := date.month_range
  have before : (date.month : Int) - 1 = (date.month - 1 : Nat) := by omega
  rw [dayNumber, before, normalizedDay_natCast (by omega)]

theorem daysBefore_month (date : Date) :
    daysBefore date.year date.month = daysBefore date.year (date.month - 1) +
        monthLength date.year date.month := by
  obtain ⟨lower, -⟩ := date.month_range
  obtain ⟨before, same⟩ := Nat.exists_eq_add_of_le' lower
  rw [same, Nat.add_sub_cancel, daysBefore]

/-- The next date has the next number. -/
theorem dayNumber_next (date : Date) : date.next.dayNumber = date.dayNumber + 1 := by
  obtain ⟨-, upper⟩ := date.month_range
  obtain ⟨-, inside⟩ := date.day_range
  have month := date.daysBefore_month
  rw [dayNumber_eq, dayNumber_eq, next]
  split_ifs with inMonth inYear
  · simp only
    omega
  · simp only [Nat.add_sub_cancel]
    omega
  · have last : date.month = 12 := by omega
    have year := yearStart_succ date.year
    have first : daysBefore (date.year + 1) (1 - 1) = 0 := rfl
    rw [last] at month inMonth inside
    simp only [first, last]
    omega

theorem dayNumber_lt_month (date : Date) :
    date.dayNumber < yearStart date.year + daysBefore date.year date.month := by
  obtain ⟨-, inside⟩ := date.day_range
  have month := date.daysBefore_month
  rw [dayNumber_eq]
  omega

theorem dayNumber_lt_year (date : Date) : date.dayNumber < yearStart (date.year + 1) := by
  have months := daysBefore_monotone date.year date.month_range.2
  have inside := date.dayNumber_lt_month
  rw [yearStart_succ]
  omega

/-- An earlier year has smaller day numbers. -/
theorem dayNumber_lt_of_year {first second : Date} (earlier : first.year < second.year) :
    first.dayNumber < second.dayNumber := by
  have inside := first.dayNumber_lt_year
  have years := yearStart_le_yearStart (Int.add_one_le_of_lt earlier)
  obtain ⟨positive, -⟩ := second.day_range
  rw [second.dayNumber_eq]
  omega

/-- So has an earlier month. -/
theorem dayNumber_lt_of_month {first second : Date}
    (same : first.year = second.year) (earlier : first.month < second.month) :
    first.dayNumber < second.dayNumber := by
  have inside := first.dayNumber_lt_month
  have months := daysBefore_monotone second.year (Nat.le_sub_one_of_lt earlier)
  obtain ⟨positive, -⟩ := second.day_range
  rw [same] at inside
  rw [second.dayNumber_eq]
  omega

/-- A number belongs to one date. -/
theorem dayNumber_injective : Function.Injective dayNumber := by
  intro first second same
  have years : first.year = second.year := by
    rcases lt_trichotomy first.year second.year with before | equal | behind
    · exact absurd same (dayNumber_lt_of_year before).ne
    · exact equal
    · exact absurd same (dayNumber_lt_of_year behind).ne'
  have months : first.month = second.month := by
    rcases lt_trichotomy first.month second.month with before | equal | behind
    · exact absurd same (dayNumber_lt_of_month years before).ne
    · exact equal
    · exact absurd same (dayNumber_lt_of_month years.symm behind).ne'
  rw [dayNumber_eq, dayNumber_eq, years, months] at same
  exact Date.ext years months (by omega)

/-- Days are counted one by one. -/
theorem dayNumber_iterate_next (date : Date) (days : Nat) :
    (next^[days] date).dayNumber = date.dayNumber + days := by
  induction days with
  | zero => exact (Int.add_zero _).symm
  | succ days ih =>
    rw [Function.iterate_succ_apply', dayNumber_next, ih]
    omega

/-- The days from one date to another are the difference of their numbers. -/
theorem iterate_next_eq_iff :
    next^[days] date = other ↔ other.dayNumber = date.dayNumber + days := by
  rw [← dayNumber_iterate_next, eq_comm]
  exact dayNumber_injective.eq_iff.symm

/-- A date is at least some days behind another. -/
def AtLeastAfter (days : Int) (date other : Date) : Prop :=
  ∃ passed : Nat, days ≤ passed ∧ next^[passed] date = other

/-- Days apart are a difference of day numbers. -/
theorem atLeastAfter_iff (positive : 0 < days) :
    AtLeastAfter days date other ↔ days ≤ other.dayNumber - date.dayNumber := by
  constructor
  · rintro ⟨passed, enough, reached⟩
    have difference := iterate_next_eq_iff.mp reached
    omega
  · intro enough
    refine ⟨(other.dayNumber - date.dayNumber).toNat, by omega, ?_⟩
    apply iterate_next_eq_iff.mpr
    omega

end Date

end Pika.Foundation

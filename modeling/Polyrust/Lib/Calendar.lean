import Mathlib.Algebra.BigOperators.Group.List.Basic
import Mathlib.Algebra.Order.Group.Int
import Mathlib.Data.Int.Init
import Mathlib.Tactic.IntervalCases
import Mathlib.Tactic.Ring

/-!
# The proleptic Gregorian calendar

Dates by the lengths of months and the rule of leap years, with no first and no last year. The
number of a date is the number of days from 1 January 1970 to it: the lengths of the years and of
the months between are added up, so that a date and the next one differ by one
(`Date.number_next`). The Julian day number, which packs the calendar into divisions, counts the
same days (`Date.julianDay_eq`).
-/

namespace Calendar

/-- Every fourth year is a leap year, of the full centuries only every fourth one. -/
def IsLeap (year : Int) : Prop := year % 4 = 0 ∧ (year % 100 ≠ 0 ∨ year % 400 = 0)

instance (year : Int) : Decidable (IsLeap year) := inferInstanceAs (Decidable (_ ∧ _))

/-- The days of a month. -/
def monthLength (year : Int) (month : Nat) : Nat :=
  if month = 2 then if IsLeap year then 29 else 28
  else if month = 4 ∨ month = 6 ∨ month = 9 ∨ month = 11 then 30
  else 31

/-- The days of a year before the end of its `n`th month. -/
def daysThrough (year : Int) : Nat → Nat
  | 0 => 0
  | n + 1 => daysThrough year n + monthLength year (n + 1)

/-- The days of a year. -/
def yearLength (year : Int) : Nat := daysThrough year 12

/-- The days from 1 January 1970 to 1 January of a year, negative before 1970. -/
def yearStart (year : Int) : Int :=
  (((List.range (year - 1970).toNat).map fun n : Nat => yearLength (1970 + n)).sum : Nat) -
    (((List.range (1970 - year).toNat).map fun n : Nat => yearLength (1969 - n)).sum : Nat)

/-- Every month has a day. -/
theorem monthLength_pos (year : Int) (month : Nat) : 1 ≤ monthLength year month := by
  unfold monthLength
  split_ifs <;> decide

/-- No month has more than 31 days. -/
theorem monthLength_le (year : Int) (month : Nat) : monthLength year month ≤ 31 := by
  unfold monthLength
  split_ifs <;> decide

/-- A date that exists. -/
structure Date where
  year : Int
  month : Nat
  day : Nat
  month_range : 1 ≤ month ∧ month ≤ 12
  day_range : 1 ≤ day ∧ day ≤ monthLength year month

namespace Date

/-- The days from 1 January 1970 to the date. -/
def number (date : Date) : Int :=
  yearStart date.year + daysThrough date.year (date.month - 1) + (date.day - 1)

/-- The day after a date: in the same month, on the first of the next one, or on 1 January. -/
def next (date : Date) : Date :=
  if hday : date.day < monthLength date.year date.month then
    { date with day := date.day + 1, day_range := ⟨Nat.le_add_left 1 _, hday⟩ }
  else if hmonth : date.month < 12 then
    { year := date.year, month := date.month + 1, day := 1
      month_range := ⟨Nat.le_add_left 1 _, hmonth⟩
      day_range := ⟨le_rfl, monthLength_pos _ _⟩ }
  else
    { year := date.year + 1, month := 1, day := 1, month_range := by decide
      day_range := ⟨le_rfl, monthLength_pos _ _⟩ }

end Date

/-! ## Counting days -/

/-- A year has 365 days, or 366. -/
theorem yearLength_eq (year : Int) : yearLength year = if IsLeap year then 366 else 365 := by
  by_cases h : IsLeap year
  · simp [yearLength, daysThrough, monthLength, h]
  · simp [yearLength, daysThrough, monthLength, h]

/-- A year begins where the last one ends. -/
theorem yearStart_succ (year : Int) : yearStart (year + 1) = yearStart year + yearLength year := by
  unfold yearStart
  rcases le_or_gt 1970 year with h | h
  · have hafter : (year + 1 - 1970).toNat = (year - 1970).toNat + 1 := by omega
    have hyear : 1970 + ((year - 1970).toNat : Int) = year := by omega
    have hbefore : (1970 - year).toNat = 0 ∧ (1970 - (year + 1)).toNat = 0 := by omega
    rw [hafter, List.sum_range_succ, hyear, hbefore.1, hbefore.2]
    push_cast
    ring
  · have hbefore : (1970 - year).toNat = (1970 - (year + 1)).toNat + 1 := by omega
    have hyear : 1969 - ((1970 - (year + 1)).toNat : Int) = year := by omega
    have hafter : (year - 1970).toNat = 0 ∧ (year + 1 - 1970).toNat = 0 := by omega
    rw [hbefore, List.sum_range_succ, hyear, hafter.1, hafter.2]
    push_cast
    ring

/-- More months have more days. -/
theorem daysThrough_mono (year : Int) : Monotone (daysThrough year) :=
  monotone_nat_of_le_succ fun _ => Nat.le_add_right _ _

/-- The month of a date comes after the months before it. -/
theorem Date.daysThrough_month (date : Date) : daysThrough date.year date.month =
    daysThrough date.year (date.month - 1) + monthLength date.year date.month := by
  obtain ⟨n, hn⟩ := Nat.exists_eq_add_of_le' date.month_range.1
  rw [hn]
  rfl

/-- A date and the next one differ by one day. -/
theorem Date.number_next (date : Date) : date.next.number = date.number + 1 := by
  obtain ⟨hm, hm'⟩ := date.month_range
  have hlast := date.day_range.2
  have hmonth := date.daysThrough_month
  unfold next
  split_ifs with hday hyear
  · simp only [number]
    push_cast
    ring
  · -- the date is the last of its month
    simp only [number, Nat.add_sub_cancel, hmonth]
    push_cast
    omega
  · -- the date is the last of its year
    have hdec : date.month = 12 := by omega
    have hlength : yearLength date.year =
        daysThrough date.year (date.month - 1) + monthLength date.year date.month := by
      rw [← hmonth, hdec, yearLength]
    simp only [number, yearStart_succ, hlength, Nat.sub_self, daysThrough]
    push_cast
    omega

/-! ## Julian days -/

/-- The Julian day number of a date, in closed form. The year starts in March, so that the leap day
comes last. -/
def julianDay (year month day : Int) : Int :=
  let a := (14 - month) / 12
  let y := year + 4800 - a
  let m := month + 12 * a - 3
  day + (153 * m + 2) / 5 + 365 * y + y / 4 - y / 100 + y / 400 - 32045

/-- The year of a date that starts in March, from 4801 BC on. -/
theorem julianDay_january (year : Int) :
    julianDay year 1 1 = 365 * (year + 4799) + (year + 4799) / 4 - (year + 4799) / 100 +
      (year + 4799) / 400 - 31738 := by
  have hyear : year + 4800 - (14 - 1) / 12 = year + 4799 := by omega
  simp only [julianDay, hyear]
  omega

/-- The formula counts the days of a year. -/
theorem julianDay_succ_year (year : Int) :
    julianDay (year + 1) 1 1 = julianDay year 1 1 + yearLength year := by
  rw [julianDay_january, julianDay_january, yearLength_eq]
  by_cases h : IsLeap year
  · rw [if_pos h]
    unfold IsLeap at h
    push_cast
    omega
  · rw [if_neg h]
    unfold IsLeap at h
    push_cast
    omega

/-- The formula counts the days from the epoch at the start of a year. -/
theorem julianDay_yearStart (year : Int) : julianDay year 1 1 = yearStart year + 2440588 := by
  induction year using Int.inductionOn' (b := 1970) with
  | zero => decide
  | succ y _ ih => rw [julianDay_succ_year, yearStart_succ, ih]; ring
  | pred y _ ih =>
    have hj := julianDay_succ_year (y - 1)
    have hs := yearStart_succ (y - 1)
    rw [sub_add_cancel] at hj hs
    omega

/-- The days of a year before a month that is not January or February. -/
theorem daysThrough_march (year : Int) {month : Nat} (hmonth : 3 ≤ month ∧ month ≤ 12) :
    (daysThrough year (month - 1) : Int) =
      (153 * (month - 3) + 2) / 5 + 59 + if IsLeap year then 1 else 0 := by
  obtain ⟨hlo, hhi⟩ := hmonth
  by_cases h : IsLeap year
  · interval_cases month <;> simp [daysThrough, monthLength, h]
  · interval_cases month <;> simp [daysThrough, monthLength, h]

/-- Within a year the formula adds up the lengths of the months. -/
theorem julianDay_month (year : Int) {month : Nat} (hmonth : 1 ≤ month ∧ month ≤ 12) (day : Int) :
    julianDay year month day = julianDay year 1 1 + daysThrough year (month - 1) + (day - 1) := by
  rw [julianDay_january]
  rcases Nat.lt_or_ge month 3 with h | h
  · have hwinter : (14 - (month : Int)) / 12 = 1 := by omega
    have hyear : year + 4800 - 1 = year + 4799 := by omega
    have hthrough : (daysThrough year (month - 1) : Int) = 31 * (month - 1) := by
      obtain rfl | rfl : month = 1 ∨ month = 2 := by omega
      · rfl
      · rfl
    simp only [julianDay, hwinter, hyear, hthrough]
    omega
  · -- from March on the formula counts from the March of the same year
    have hmarch : (14 - (month : Int)) / 12 = 0 := by omega
    rw [daysThrough_march year ⟨h, hmonth.2⟩]
    simp only [julianDay, hmarch]
    by_cases hleap : IsLeap year
    · rw [if_pos hleap]
      unfold IsLeap at hleap
      omega
    · rw [if_neg hleap]
      unfold IsLeap at hleap
      omega

/-- The formula counts the days from the epoch. -/
theorem Date.julianDay_eq (date : Date) :
    julianDay date.year date.month date.day = date.number + 2440588 := by
  rw [julianDay_month _ date.month_range, julianDay_yearStart, number]
  ring

/-- From the year zero on every year has 365 or 366 days. -/
theorem Date.number_bounds (date : Date) (h : 0 ≤ date.year) :
    365 * date.year ≤ date.number + 719528 ∧ date.number + 719528 < 366 * (date.year + 1) := by
  have hstart := julianDay_yearStart date.year
  rw [julianDay_january] at hstart
  have hday := date.day_range
  have hmonth := date.daysThrough_month
  have hyear : daysThrough date.year date.month ≤ yearLength date.year :=
    daysThrough_mono date.year date.month_range.2
  have hlength : yearLength date.year ≤ 366 := by
    rw [yearLength_eq]
    split <;> decide
  unfold number
  omega

end Calendar

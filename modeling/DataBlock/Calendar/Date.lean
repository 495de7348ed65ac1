import DataBlock.Number.Decimal

/-!
# Dates

Dates of the Gregorian calendar, extended to all years, with the number of a day,
its weekday, and the date a number of days later.

Main results:

- `Date.ordinal_addDays`: the date `n` days later has the day number that is
  larger by `n`.
-/

namespace DataBlock

/-! ## Years and months -/

/-- A year with a twenty-ninth of February. -/
def IsLeapYear (year : Int) : Prop :=
  year % 4 = 0 ∧ (year % 100 ≠ 0 ∨ year % 400 = 0)

instance (year : Int) : Decidable (IsLeapYear year) :=
  inferInstanceAs (Decidable (_ ∧ _))

/-- The days of a month; of the twelfth month for every number above. -/
def monthLength (year : Int) : Nat → Nat
  | 2 => if IsLeapYear year then 29 else 28
  | 4 | 6 | 9 | 11 => 30
  | _ => 31

theorem monthLength_pos (year : Int) (month : Nat) : 0 < monthLength year month := by
  unfold monthLength
  repeat' split
  all_goals decide

/-- The days of the months before a month of the same year. -/
def daysBeforeMonth (year : Int) : Nat → Nat
  | 0 => 0
  | 1 => 0
  | month + 2 => daysBeforeMonth year (month + 1) + monthLength year (month + 1)

/-- The days from the beginning of the year 1 to that of another year. -/
def daysBeforeYear (year : Int) : Int :=
  365 * (year - 1) + (year - 1) / 4 - (year - 1) / 100 + (year - 1) / 400

/-- A year is as long as its months together. -/
theorem daysBeforeYear_add_one (year : Int) :
    daysBeforeYear (year + 1)
      = daysBeforeYear year + (daysBeforeMonth year 12 + monthLength year 12 : Nat) := by
  by_cases h : IsLeapYear year <;>
    simp only [daysBeforeMonth, monthLength, h, if_true, if_false, daysBeforeYear] <;>
    simp only [IsLeapYear] at h <;>
    omega

/-! ## Dates -/

/-- A day of the calendar. -/
structure Date where
  year : Int
  month : Nat
  day : Nat
  month_valid : 1 ≤ month ∧ month ≤ 12
  day_valid : 1 ≤ day ∧ day ≤ monthLength year month
  deriving DecidableEq

namespace Date

/-- The date with the given parts, if the calendar has it. -/
def ofParts? (year : Int) (month day : Nat) : Option Date :=
  if h : (1 ≤ month ∧ month ≤ 12) ∧ 1 ≤ day ∧ day ≤ monthLength year month then
    some ⟨year, month, day, h.1, h.2⟩
  else none

/-- The number of a day; the first day of the year 1 has number one. -/
def ordinal (d : Date) : Int :=
  daysBeforeYear d.year + (daysBeforeMonth d.year d.month + d.day : Nat)

/-- The code of the weekday, from one for a Sunday to seven for a Saturday. -/
def weekday (d : Date) : Nat :=
  (d.ordinal % 7).toNat + 1

/-- The date `n` days after the first of a month. -/
def ofMonth (year : Int) (month : Nat) (hmonth : 1 ≤ month ∧ month ≤ 12) (n : Nat) : Date :=
  if h : n < monthLength year month then
    ⟨year, month, n + 1, hmonth, by omega⟩
  else if hlast : month = 12 then
    ofMonth (year + 1) 1 (by omega) (n - monthLength year month)
  else
    ofMonth year (month + 1) (by omega) (n - monthLength year month)
termination_by n
decreasing_by
  all_goals
    have := monthLength_pos year month
    omega

/-- The date `n` days later. -/
def addDays (d : Date) (n : Nat) : Date :=
  ofMonth d.year d.month d.month_valid (d.day - 1 + n)

theorem ordinal_ofMonth (year : Int) (month : Nat) (hmonth : 1 ≤ month ∧ month ≤ 12)
    (n : Nat) :
    (ofMonth year month hmonth n).ordinal
      = daysBeforeYear year + (daysBeforeMonth year month + n + 1 : Nat) := by
  fun_induction ofMonth year month hmonth n with
  | case1 year month hmonth n h => rfl
  | case2 year hmonth n h ih =>
      rw [ih, daysBeforeYear_add_one]
      simp only [daysBeforeMonth]
      omega
  | case3 year month hmonth n h hlast ih =>
      obtain ⟨m, rfl⟩ : ∃ m, month = m + 1 := ⟨month - 1, by omega⟩
      rw [ih, daysBeforeMonth]
      omega

/-- The date `n` days later has the day number that is larger by `n`. -/
theorem ordinal_addDays (d : Date) (n : Nat) :
    (d.addDays n).ordinal = d.ordinal + n := by
  have := d.day_valid
  rw [addDays, ordinal_ofMonth, ordinal]
  omega

/-! ## Text -/

/-- The text of a year: four digits, with a sign in front outside of 0 to 9999. -/
def yearText (year : Int) : String :=
  if year < 0 then "-" ++ Decimal.padded 4 year.natAbs
  else if 9999 < year then "+" ++ Decimal.padded 4 year.natAbs
  else Decimal.padded 4 year.natAbs

/-- Year, month and day, joined by hyphens. -/
def text (d : Date) : String :=
  yearText d.year ++ "-" ++ Decimal.padded 2 d.month ++ "-" ++ Decimal.padded 2 d.day

end Date
end DataBlock

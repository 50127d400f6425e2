import Mathlib.Tactic.IntervalCases
import Purse.Timestamp.Calendar

/-!
# Dates and days

Counting days from a date and finding the date of a count undo each other (`Date.toDays_ofDays`),
and what is found is a date of the calendar (`Date.isValid_ofDays`). A cycle of four hundred years is
four centuries and a day, a century is twenty-five times four years less a day, four years are 1461
days: `Date.yearOfCycle_eq` says that the year of a day in the cycle, which is computed by one
division, is the one that this count gives.
-/

namespace Purse.Date

/-! ### Years of a cycle -/

/-- The year of a cycle in which a day of it lies. -/
def yearOfCycle (day : Nat) : Nat := (day - day / 1460 + day / 36524 - day / 146096) / 365

/-- The days of a cycle before one of its years. -/
def daysBefore (year : Nat) : Nat := 365 * year + year / 4 - year / 100

section Count

-- a day by its century, four years of that, and the days in these
variable {century four rest : Nat}

/-- **The year of a day,** counted by centuries and by fours. The last day of four years has no year
after the fourth. -/
theorem yearOfCycle_eq (hc : century ≤ 3) (hr : rest ≤ 1460) (hf : 1461 * four + rest < 36524) :
    yearOfCycle (36524 * century + 1461 * four + rest) =
      100 * century + 4 * four + min (rest / 365) 3 := by
  have centuries : (36524 * century + 1461 * four + rest) / 36524 = century := by omega
  have cycles : (36524 * century + 1461 * four + rest) / 146096 = 0 := by omega
  -- one day is taken off for every four years that are over, and at the end of the last of four
  have fours : (36524 * century + 1461 * four + rest) / 1460 =
      25 * century + four + (24 * century + four + rest) / 1460 := by omega
  rw [yearOfCycle, centuries, cycles, fours]
  omega

theorem daysBefore_eq (century : Nat) {z : Nat} (hz : z ≤ 3) (hf : four ≤ 24) :
    daysBefore (100 * century + 4 * four + z) = 36524 * century + 1461 * four + 365 * z := by
  unfold daysBefore
  omega

end Count

/-- A day of a year of a cycle: it is at most the 366th, and that only in a leap year. The year is
taken to begin in March, so it is the next one that has the 29th of February. -/
structure InYear (year day : Nat) : Prop where
  year_lt : year < 400
  day_le : day ≤ 365
  leap : day = 365 → isLeapYear (year + 1)

/-- **Every day of a cycle lies in its year.** -/
theorem inYear_yearOfCycle {day : Nat} (h : day < 146097) :
    daysBefore (yearOfCycle day) ≤ day ∧
      InYear (yearOfCycle day) (day - daysBefore (yearOfCycle day)) := by
  rcases Nat.lt_or_ge day 146096 with inside | last
  · obtain ⟨century, four, rest, hc, hr, hf, rfl⟩ : ∃ century four rest, century ≤ 3 ∧
        rest ≤ 1460 ∧ 1461 * four + rest < 36524 ∧
        day = 36524 * century + 1461 * four + rest :=
      ⟨day / 36524, day % 36524 / 1461, day % 36524 % 1461, by omega, by omega, by omega, by omega⟩
    have before := daysBefore_eq century (Nat.min_le_right (rest / 365) 3) (show four ≤ 24 by omega)
    rw [yearOfCycle_eq hc hr hf]
    refine ⟨by omega, by omega, by omega, fun full => ?_⟩
    -- the last day of four years, which are not the last of a century
    have fourth : rest = 1460 ∧ four ≤ 23 := by omega
    have year : min (rest / 365) 3 = 3 := by omega
    rw [year, isLeapYear]
    simp only [Bool.and_eq_true, Bool.or_eq_true, beq_iff_eq, bne_iff_ne]
    omega
  -- the last day of a cycle belongs to its last year
  · obtain rfl : day = 146096 := by omega
    exact ⟨by decide, by decide, by decide, fun _ => by decide⟩

/-! ### Months of a year -/

/-- The month in which a day of a year lies, counted from March. -/
def monthOfYear (day : Nat) : Nat := (5 * day + 2) / 153

/-- The days of a year before one of its months. -/
def daysBeforeMonth (month : Nat) : Nat := (153 * month + 2) / 5

theorem monthOfYear_le {day : Nat} (h : day ≤ 365) : monthOfYear day ≤ 11 := by
  unfold monthOfYear
  omega

theorem daysBeforeMonth_le (day : Nat) : daysBeforeMonth (monthOfYear day) ≤ day := by
  unfold daysBeforeMonth monthOfYear
  omega

/-- The number of a month in the calendar. -/
def calendarMonth (month : Nat) : Nat := if month < 10 then month + 3 else month - 9

theorem calendarMonth_bounds {month : Nat} (h : month ≤ 11) :
    1 ≤ calendarMonth month ∧ calendarMonth month ≤ 12 := by
  unfold calendarMonth
  split <;> omega

theorem calendarMonth_shifted {month : Nat} (h : month ≤ 11) :
    (calendarMonth month + 9) % 12 = month := by
  unfold calendarMonth
  split <;> omega

/-- From March to January a month has as many days as lie before the next one. -/
theorem daysInMonth_eq (year : Int) {month : Nat} (h : month ≤ 10) :
    daysBeforeMonth (month + 1) = daysBeforeMonth month + daysInMonth year (calendarMonth month) := by
  interval_cases month <;> rfl

/-- **A day lies in its month.** For the 366th day of a year that month is February, which has a
29th in a leap year. -/
theorem dayOfMonth_le {day : Nat} (h : day ≤ 365) {year : Int}
    (leap : day = 365 → isLeapYear year) :
    day - daysBeforeMonth (monthOfYear day) + 1 ≤
      daysInMonth year (calendarMonth (monthOfYear day)) := by
  have next : day < daysBeforeMonth (monthOfYear day + 1) := by
    unfold daysBeforeMonth monthOfYear
    omega
  rcases (monthOfYear_le h).lt_or_eq with early | february
  · have length := daysInMonth_eq year (Nat.lt_succ_iff.1 early)
    have first := daysBeforeMonth_le day
    omega
  · rw [february]
    change day - 337 + 1 ≤ if isLeapYear year then 29 else 28
    split
    · omega
    · next common =>
      have : day ≠ 365 := fun full => common (leap full)
      omega

/-! ### There and back -/

/-- The days to a date are those of the cycles, years and months before it. -/
theorem toDays_eq (d : Date) :
    d.toDays =
      let year := if d.month ≤ 2 then d.year - 1 else d.year
      let rest := daysBeforeMonth ((d.month + 9) % 12) + d.day - 1
      year / 400 * daysPerCycle + ((year % 400).toNat * 365 + (year % 400).toNat / 4 -
        (year % 400).toNat / 100 + rest : Nat) - daysToEpoch :=
  rfl

/-- The date of a day of a year of a cycle. January and February belong to the next year. -/
def ofParts (cycle : Int) (year day : Nat) : Date :=
  let month := calendarMonth (monthOfYear day)
  let shifted : Int := year + cycle * 400
  ⟨if month ≤ 2 then shifted + 1 else shifted, month, day - daysBeforeMonth (monthOfYear day) + 1⟩

/-- A count of days taken apart as it is to find its date. -/
theorem exists_parts (days : Int) : ∃ cycle year day, InYear year day ∧
    days = cycle * daysPerCycle + (daysBefore year + day : Nat) - daysToEpoch ∧
    ofDays days = ofParts cycle year day := by
  have small : ((days + daysToEpoch) % daysPerCycle).toNat < 146097 := by
    unfold daysPerCycle
    omega
  obtain ⟨before, inYear⟩ := inYear_yearOfCycle small
  refine ⟨_, _, _, inYear, ?_, rfl⟩
  rw [Nat.add_sub_cancel' before]
  unfold daysPerCycle
  omega

section Parts

variable {cycle : Int} {year day : Nat} (inYear : InYear year day)
include inYear

theorem toDays_ofParts : (ofParts cycle year day).toDays =
    cycle * daysPerCycle + (daysBefore year + day : Nat) - daysToEpoch := by
  have month := calendarMonth_shifted (monthOfYear_le inYear.day_le)
  have first := daysBeforeMonth_le day
  have shifted : (if (ofParts cycle year day).month ≤ 2 then (ofParts cycle year day).year - 1
      else (ofParts cycle year day).year) = year + cycle * 400 := by
    unfold ofParts
    dsimp only
    split <;> omega
  have low := inYear.year_lt
  have cycles : ((year : Int) + cycle * 400) / 400 = cycle := by omega
  have years : (((year : Int) + cycle * 400) % 400).toNat = year := by omega
  -- the day of the month, behind the days before the month, is the day of the year
  have days : daysBeforeMonth (((ofParts cycle year day).month + 9) % 12) +
      (ofParts cycle year day).day - 1 = day := by
    change daysBeforeMonth ((calendarMonth (monthOfYear day) + 9) % 12) +
      (day - daysBeforeMonth (monthOfYear day) + 1) - 1 = day
    rw [month]
    omega
  rw [toDays_eq]
  dsimp only
  rw [shifted, cycles, years, days, Nat.mul_comm year]
  rfl

theorem isValid_ofParts : (ofParts cycle year day).isValid := by
  obtain ⟨first, last⟩ := calendarMonth_bounds (monthOfYear_le inYear.day_le)
  have fits : day - daysBeforeMonth (monthOfYear day) + 1 ≤
      daysInMonth (ofParts cycle year day).year (calendarMonth (monthOfYear day)) := by
    refine dayOfMonth_le inYear.day_le fun full => ?_
    -- the 366th day lies in February, of the next year, which is a leap year
    have leap := inYear.leap full
    have february : (ofParts cycle year day).year = year + cycle * 400 + 1 := by
      rw [full]
      rfl
    unfold isLeapYear at leap ⊢
    simp only [Bool.and_eq_true, Bool.or_eq_true, beq_iff_eq, bne_iff_ne, ne_eq] at leap ⊢
    omega
  simp only [isValid, Bool.and_eq_true, decide_eq_true_eq]
  exact ⟨⟨⟨first, last⟩, Nat.le_add_left 1 _⟩, fits⟩

end Parts

/-- **Counting the days to the date of a count gives the count.** -/
theorem toDays_ofDays (days : Int) : (ofDays days).toDays = days := by
  obtain ⟨cycle, year, day, inYear, count, date⟩ := exists_parts days
  rw [date, toDays_ofParts inYear, count]

/-- **The date of a count is one of the calendar.** -/
theorem isValid_ofDays (days : Int) : (ofDays days).isValid := by
  obtain ⟨cycle, year, day, inYear, -, date⟩ := exists_parts days
  rw [date]
  exact isValid_ofParts inYear

end Purse.Date

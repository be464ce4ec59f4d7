import Mathlib.Tactic.Common
import StepRunner.Time.Calendar

namespace StepRunner.Date

/-- The days of a cycle of 400 years fall into centuries, spans of four years and years. A year has
    a last day in the fourth year of a span, unless the span ends a century that does not end the
    cycle. -/
theorem exists_cycle_parts {day : Int} (h : 0 ≤ day) (h' : day < 146097) :
    ∃ century span year dayOfYear : Int, (0 ≤ century ∧ century ≤ 3) ∧ (0 ≤ span ∧ span ≤ 24) ∧
      (0 ≤ year ∧ year ≤ 3) ∧ (0 ≤ dayOfYear ∧ dayOfYear ≤ 365) ∧
      (dayOfYear = 365 → year = 3 ∧ (span < 24 ∨ century = 3)) ∧
      day = 36524 * century + 1461 * span + 365 * year + dayOfYear ∧
      (day - day / 1460 + day / 36524 - day / 146096) / 365 = 100 * century + 4 * span + year := by
  by_cases hlast : day = 146096
  · subst hlast
    exact ⟨3, 24, 3, 365, by decide⟩
  obtain ⟨century, hcentury⟩ : ∃ century, century = day / 36524 := ⟨_, rfl⟩
  obtain ⟨span, hspan⟩ : ∃ span, span = day % 36524 / 1461 := ⟨_, rfl⟩
  obtain ⟨rest, hrest⟩ : ∃ rest, rest = day % 36524 % 1461 := ⟨_, rfl⟩
  have hday : day = 36524 * century + 1461 * span + rest := by omega
  have hbounds : (0 ≤ century ∧ century ≤ 3) ∧ (0 ≤ span ∧ span ≤ 24) ∧ 0 ≤ rest ∧ rest ≤ 1460 := by
    omega
  have hfirst : day / 146096 = 0 := by omega
  by_cases hleap : rest = 1460
  · have hspans : day / 1460 = 25 * century + span + 1 := by omega
    have hinner : span < 24 := by omega
    refine ⟨century, span, 3, 365, ?_⟩
    omega
  · have hspans : day / 1460 = 25 * century + span ∨
        day / 1460 = 25 * century + span + 1 ∧ 1364 ≤ rest := by omega
    refine ⟨century, span, rest / 365, rest % 365, ?_⟩
    omega

/-- The days of a month that is counted from March, in a year whose February has 29 days. -/
def daysFromMarch (month : Int) : Int :=
  if month = 11 then 29 else if month = 1 ∨ month = 3 ∨ month = 6 ∨ month = 8 then 30 else 31

/-- The days of a year from March on fall into months. -/
theorem exists_month_parts {dayOfYear : Int} (h : 0 ≤ dayOfYear) (h' : dayOfYear ≤ 365) :
    ∃ month day : Int, (0 ≤ month ∧ month ≤ 11) ∧ (1 ≤ day ∧ day ≤ daysFromMarch month) ∧
      (month = 11 → day = 29 → dayOfYear = 365) ∧
      (5 * dayOfYear + 2) / 153 = month ∧ dayOfYear = (153 * month + 2) / 5 + day - 1 := by
  obtain ⟨month, hmonth⟩ : ∃ month, month = (5 * dayOfYear + 2) / 153 := ⟨_, rfl⟩
  refine ⟨month, dayOfYear - (153 * month + 2) / 5 + 1, by omega, ⟨by omega, ?_⟩, by omega,
    hmonth.symm, by omega⟩
  rw [daysFromMarch]
  split_ifs with hlast hshort
  · omega
  · rcases hshort with rfl | rfl | rfl | rfl <;> omega
  · omega

/-- The year and month of the calendar, for a year and a month that are counted from March. -/
def fromMarch (year month day : Int) : Date :=
  ⟨if month < 10 then year else year + 1, (if month < 10 then month + 3 else month - 9).toNat,
    day.toNat⟩

/-- A day falls into a cycle of 400 years, and there into a year and a month from March on. -/
theorem exists_parts (number : Int) : ∃ cycle century span year month day : Int,
    (0 ≤ century ∧ century ≤ 3) ∧ (0 ≤ span ∧ span ≤ 24) ∧ (0 ≤ year ∧ year ≤ 3) ∧
      (0 ≤ month ∧ month ≤ 11) ∧ (1 ≤ day ∧ day ≤ daysFromMarch month) ∧
      (month = 11 → day = 29 → year = 3 ∧ (span < 24 ∨ century = 3)) ∧
      number + 719468 = 146097 * cycle + 36524 * century + 1461 * span + 365 * year +
        ((153 * month + 2) / 5 + day - 1) ∧
      ofDayNumber number = fromMarch (400 * cycle + 100 * century + 4 * span + year) month day := by
  obtain ⟨cycle, hcycle⟩ : ∃ cycle, cycle = (number + 719468) / 146097 := ⟨_, rfl⟩
  obtain ⟨dayOfCycle, hdayOfCycle⟩ : ∃ day, day = (number + 719468) % 146097 := ⟨_, rfl⟩
  obtain ⟨century, span, year, dayOfYear, hcentury, hspan, hyear, hdayOfYear, hleap, hcycleParts,
    hyearOfCycle⟩ := exists_cycle_parts (by omega : 0 ≤ dayOfCycle) (by omega : dayOfCycle < 146097)
  obtain ⟨month, day, hmonth, hday, hlast, hmonthEq, hyearParts⟩ :=
    exists_month_parts hdayOfYear.1 hdayOfYear.2
  refine ⟨cycle, century, span, year, month, day, hcentury, hspan, hyear, hmonth, hday,
    fun h h' => hleap (hlast h h'), by omega, ?_⟩
  have hfour : (100 * century + 4 * span + year) / 4 = 25 * century + span := by omega
  have hhundred : (100 * century + 4 * span + year) / 100 = century := by omega
  have hinYear : dayOfCycle - (365 * (100 * century + 4 * span + year) +
      (100 * century + 4 * span + year) / 4 - (100 * century + 4 * span + year) / 100) =
        dayOfYear := by
    rw [hfour, hhundred, hcycleParts]
    omega
  have hinMonth : dayOfYear - (153 * month + 2) / 5 + 1 = day := by omega
  simp only [ofDayNumber, ← hcycle, ← hdayOfCycle, hyearOfCycle, hinYear, hmonthEq, hinMonth,
    fromMarch]
  have hwhen : (if month < 10 then month + 3 else month - 9) ≤ 2 ↔ ¬month < 10 := by
    split_ifs <;> omega
  simp only [hwhen, ite_not]
  congr 1
  split_ifs <;> omega

/-- The day of a date is the day it was made from. -/
theorem dayNumber_ofDayNumber (number : Int) : (ofDayNumber number).dayNumber = number := by
  obtain ⟨cycle, century, span, year, month, day, hcentury, hspan, hyear, hmonth, hday, _, hnumber,
    hdate⟩ := exists_parts number
  have hday' : (day.toNat : Int) = day := by omega
  rw [hdate]
  simp only [dayNumber, fromMarch, hday']
  by_cases hlate : month < 10
  · have hmonth' : (month + 3).toNat = month + 3 := by omega
    simp only [if_pos hlate]
    rw [if_neg (by omega), if_neg (by omega)]
    omega
  · simp only [if_neg hlate]
    rw [if_pos (by omega), if_pos (by omega)]
    omega

/-- The days that timestamps reach lie in the years that they reach. -/
theorem year_ofDayNumber {number : Int} (h : -96465292 ≤ number) (h' : number ≤ 95026236) :
    -262143 ≤ (ofDayNumber number).year ∧ (ofDayNumber number).year ≤ 262142 := by
  obtain ⟨cycle, century, span, year, month, day, hcentury, hspan, hyear, hmonth, hday, _, hnumber,
    hdate⟩ := exists_parts number
  rw [hdate]
  have hmost : daysFromMarch month ≤ 31 := by
    rw [daysFromMarch]
    split_ifs <;> decide
  have hcycle : -656 ≤ cycle ∧ cycle ≤ 655 := by omega
  simp only [fromMarch]
  split_ifs <;> omega

theorem exists?_iff {d : Date} : d.exists? = true ↔
    (1 ≤ d.month ∧ d.month ≤ 12) ∧ 1 ≤ d.day ∧ d.day ≤ daysInMonth d.year d.month := by
  simp [exists?, and_assoc]

theorem daysInMonth_le (year : Int) (month : ℕ) : daysInMonth year month ≤ 31 := by
  unfold daysInMonth
  split
  · split_ifs <;> decide
  all_goals decide

/-- Every month but February has the same days in all years. -/
theorem daysInMonth_of_lt {month : Int} (h : 0 ≤ month) (h' : month < 11) (year : Int) :
    (daysInMonth year (if month < 10 then month + 3 else month - 9).toNat : Int) =
      daysFromMarch month := by
  have hcases : month = 0 ∨ month = 1 ∨ month = 2 ∨ month = 3 ∨ month = 4 ∨ month = 5 ∨ month = 6 ∨
      month = 7 ∨ month = 8 ∨ month = 9 ∨ month = 10 := by omega
  rcases hcases with rfl | rfl | rfl | rfl | rfl | rfl | rfl | rfl | rfl | rfl | rfl <;> rfl

/-- Each day has a date that exists. -/
theorem exists?_ofDayNumber (number : Int) : (ofDayNumber number).exists? = true := by
  obtain ⟨cycle, century, span, year, month, day, hcentury, hspan, hyear, hmonth, hday, hlast,
    hnumber, hdate⟩ := exists_parts number
  rw [hdate, exists?_iff]
  refine ⟨?_, ?_, ?_⟩
  · simp only [fromMarch]
    split_ifs <;> omega
  · simp only [fromMarch]
    omega
  simp only [fromMarch]
  by_cases hfebruary : month < 11
  · have hdays := daysInMonth_of_lt hmonth.1 hfebruary
      (if month < 10 then 400 * cycle + 100 * century + 4 * span + year
        else 400 * cycle + 100 * century + 4 * span + year + 1)
    omega
  obtain rfl : month = 11 := by omega
  have hleap : day = 29 →
      isLeapYear (400 * cycle + 100 * century + 4 * span + year + 1) = true := by
    intro hday'
    obtain ⟨hyear', hspan'⟩ := hlast rfl hday'
    simp only [isLeapYear, Bool.and_eq_true, Bool.or_eq_true, beq_iff_eq, bne_iff_ne]
    omega
  have hmost : day ≤ 29 := hday.2
  change day.toNat ≤
    if isLeapYear (400 * cycle + 100 * century + 4 * span + year + 1) then 29 else 28
  split_ifs with hyear'
  · omega
  · have hday' : day ≠ 29 := fun h => hyear' (hleap h)
    omega

end StepRunner.Date

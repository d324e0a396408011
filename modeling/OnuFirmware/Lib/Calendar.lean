import Mathlib.Data.List.Basic
import Mathlib.Tactic.IntervalCases

/-!
# The Gregorian calendar

Dates as numbers of days. The days are counted year by year and month by month, and the weekday of a
date is its number modulo seven; `dayNumber_next` says that the count goes up by one from a date to
the next, so the weekdays follow each other across the ends of months, leap days and centuries.
-/

namespace OnuFirmware.Lib

def isLeap (year : Nat) : Bool := year % 4 == 0 && (year % 100 != 0 || year % 400 == 0)

def daysInMonth (year month : Nat) : Nat :=
  match month with
  | 2 => if isLeap year then 29 else 28
  | 4 | 6 | 9 | 11 => 30
  | _ => 31

/-- A date; January is month `1`. -/
structure Date where
  year : Nat
  month : Nat
  day : Nat
deriving Repr, DecidableEq

/-- There is such a day in the calendar. -/
def Date.Valid (d : Date) : Prop :=
  (1 ≤ d.month ∧ d.month ≤ 12) ∧ 1 ≤ d.day ∧ d.day ≤ daysInMonth d.year d.month

instance (d : Date) : Decidable d.Valid := by
  unfold Date.Valid
  infer_instance

/-- The following day. -/
def Date.next (d : Date) : Date :=
  if d.day < daysInMonth d.year d.month then ⟨d.year, d.month, d.day + 1⟩
  else if d.month < 12 then ⟨d.year, d.month + 1, 1⟩
  else ⟨d.year + 1, 1, 1⟩

def daysInYear (year : Nat) : Nat := if isLeap year then 366 else 365

/-- The days of the years before `year`, from year `0` on. -/
def daysBeforeYear : Nat → Nat
  | 0 => 0
  | year + 1 => daysBeforeYear year + daysInYear year

/-- The days of the months before `month`. -/
def daysBeforeMonth (year : Nat) : Nat → Nat
  | 0 => 0
  | 1 => 0
  | month + 2 => daysBeforeMonth year (month + 1) + daysInMonth year (month + 1)

/-- The number of days between the first day of year `0` and the date. -/
def dayNumber (d : Date) : Nat :=
  daysBeforeYear d.year + daysBeforeMonth d.year d.month + (d.day - 1)

/-- The weekday, `1` for Monday to `7` for Sunday. The first day of year `0` is a Saturday. -/
def isoWeekday (d : Date) : Nat := (dayNumber d + 5) % 7 + 1

/-- The third of January 2000 is a Monday. -/
example : isoWeekday ⟨2000, 1, 3⟩ = 1 := by decide +kernel

/-! ## Days in a row -/

theorem isLeap_iff (year : Nat) :
    isLeap year = true ↔ year % 4 = 0 ∧ (year % 100 ≠ 0 ∨ year % 400 = 0) := by
  simp [isLeap]

theorem daysInMonth_le (year month : Nat) : daysInMonth year month ≤ 31 := by
  unfold daysInMonth
  repeat' split
  all_goals omega

/-- The 29th of February is in a year divisible by four. -/
theorem daysInMonth_february {year day : Nat} (h : day ≤ daysInMonth year 2) :
    day ≤ 28 ∨ day = 29 ∧ year % 4 = 0 := by
  change day ≤ if isLeap year then 29 else 28 at h
  split at h
  · next hleap =>
    have := (isLeap_iff year).mp hleap
    omega
  · exact .inl h

theorem daysBeforeMonth_succ (year : Nat) {month : Nat} (h : 1 ≤ month) :
    daysBeforeMonth year (month + 1) = daysBeforeMonth year month + daysInMonth year month := by
  obtain ⟨m, rfl⟩ : ∃ m, month = m + 1 := ⟨month - 1, by omega⟩
  rfl

/-- A year has the days of its months. -/
theorem daysBeforeMonth_year (year : Nat) :
    daysBeforeMonth year 12 + daysInMonth year 12 = daysInYear year := by
  simp only [daysBeforeMonth, daysInMonth, daysInYear]
  cases isLeap year <;> rfl

/-- **The next day has the next number.** -/
theorem dayNumber_next {d : Date} (h : d.Valid) : dayNumber d.next = dayNumber d + 1 := by
  obtain ⟨⟨hm, hm'⟩, hd, hd'⟩ := h
  unfold Date.next
  split
  · simp only [dayNumber]
    omega
  · next hlast =>
    split
    · simp only [dayNumber, daysBeforeMonth_succ d.year hm]
      omega
    · have hmonth : d.month = 12 := by omega
      have hyear := daysBeforeMonth_year d.year
      have hfirst : daysBeforeMonth (d.year + 1) 1 = 0 := rfl
      rw [hmonth] at hd' hlast
      simp only [dayNumber, daysBeforeYear, hfirst, hmonth]
      omega

/-- The weekdays follow each other. -/
theorem isoWeekday_next {d : Date} (h : d.Valid) : isoWeekday d.next = isoWeekday d % 7 + 1 := by
  unfold isoWeekday
  rw [dayNumber_next h]
  omega

theorem valid_next {d : Date} (h : d.Valid) : d.next.Valid := by
  have hpos : ∀ y m, 1 ≤ daysInMonth y m := by
    intro y m
    unfold daysInMonth
    repeat' split
    all_goals omega
  obtain ⟨⟨hm, hm'⟩, hd, hd'⟩ := h
  unfold Date.next
  split
  · exact ⟨⟨hm, hm'⟩, Nat.le_add_left 1 d.day, by assumption⟩
  split
  · exact ⟨⟨by simp, by assumption⟩, Nat.le_refl 1, hpos _ _⟩
  · exact ⟨⟨Nat.le_refl 1, by simp⟩, Nat.le_refl 1, hpos _ _⟩

theorem Date.year_le_next (d : Date) : d.year ≤ d.next.year := by
  unfold Date.next
  split
  · exact Nat.le_refl _
  split
  · exact Nat.le_refl _
  · exact Nat.le_succ _

/-- The years before a year in closed form: one leap day in four years, but not in full centuries,
but in every fourth of them. -/
theorem daysBeforeYear_eq (year : Nat) :
    daysBeforeYear year + (year + 99) / 100 = 365 * year + (year + 3) / 4 + (year + 399) / 400 := by
  induction year with
  | zero => rfl
  | succ year ih =>
    have hleap := isLeap_iff year
    -- each quotient grows in the multiples of its divisor
    have h4 : (year + 1 + 3) / 4 = (year + 3) / 4 + if year % 4 = 0 then 1 else 0 := by
      split <;> omega
    have h100 : (year + 1 + 99) / 100 = (year + 99) / 100 + if year % 100 = 0 then 1 else 0 := by
      split <;> omega
    have h400 : (year + 1 + 399) / 400 = (year + 399) / 400 + if year % 400 = 0 then 1 else 0 := by
      split <;> omega
    have hdays : daysInYear year + (if year % 100 = 0 then 1 else 0) =
        365 + (if year % 4 = 0 then 1 else 0) + if year % 400 = 0 then 1 else 0 := by
      rw [daysInYear, if_congr hleap rfl rfl]
      split_ifs <;> omega
    rw [daysBeforeYear, h4, h100, h400]
    omega

/-- The same count with the leap day of the year itself. -/
theorem daysBeforeYear_leap (year : Nat) :
    daysBeforeYear year + (if isLeap year then 1 else 0) + year / 100
      = 365 * year + year / 4 + year / 400 + 1 := by
  have hnext := daysBeforeYear_eq (year + 1)
  have h4 : (year + 1 + 3) / 4 = year / 4 + 1 := by omega
  have h100 : (year + 1 + 99) / 100 = year / 100 + 1 := by omega
  have h400 : (year + 1 + 399) / 400 = year / 400 + 1 := by omega
  have hdays : daysBeforeYear (year + 1)
      = daysBeforeYear year + 365 + if isLeap year then 1 else 0 := by
    show daysBeforeYear year + daysInYear year = _
    unfold daysInYear
    split <;> rfl
  rw [hdays, h4, h100, h400] at hnext
  omega

/-- The days before the first of a month, with one more behind the leap day. -/
theorem daysBeforeMonth_eq (year : Nat) {month : Nat} (h : 1 ≤ month) (h' : month ≤ 12) :
    daysBeforeMonth year month = if month ≤ 2 then 31 * (month - 1)
      else (153 * (month - 3) + 2) / 5 + 59 + if isLeap year then 1 else 0 := by
  interval_cases month <;>
    · simp only [daysBeforeMonth, daysInMonth]
      cases isLeap year <;> rfl

end OnuFirmware.Lib

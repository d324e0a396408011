import OnuFirmware.Clib.Num
import OnuFirmware.Lib.Calendar

/-!
# The weekday of the timer thread

`start_dbus_timer` asks `CaculateWeekDay` for the weekday whenever the date has changed. The
function counts January and February as months 13 and 14 of the year before and adds up five
truncating divisions. `caculateWeekDay_eq` compares the sum with the number of days that
`Lib.Calendar` counts.
-/

namespace OnuFirmware.Central

open Clib Lib

/-- The result of an operation on `int`. On overflow, which C leaves undefined, it is `none`. -/
def cint (x : Int) : Option Int := if -intMax - 1 ≤ x ∧ x ≤ intMax then some x else none

theorem cint_eq {x : Int} (h : -intMax - 1 ≤ x) (h' : x ≤ intMax) : cint x = some x :=
  if_pos ⟨h, h'⟩

theorem cint_bind {x : Int} {f : Int → Option Int} (h : 0 ≤ x) (h' : x ≤ intMax) :
    (cint x).bind f = f x := by
  rw [cint_eq (by omega) h', Option.bind_some]

/-- The Kim Larsson formula of `CaculateWeekDay`, from left to right. -/
def kimLarsson (year mon day : Int) : Option Int := do
  let twice ← cint (2 * mon)
  let sum ← cint (day + twice)
  let succ ← cint (mon + 1)
  let thrice ← cint (3 * succ)
  let sum ← cint (sum + thrice.tdiv 5)
  let sum ← cint (sum + year)
  let sum ← cint (sum + year.tdiv 4)
  let sum ← cint (sum - year.tdiv 100)
  let sum ← cint (sum + year.tdiv 400)
  let iWeek := sum.tmod 7
  cint (iWeek + 1)

/-- `CaculateWeekDay`. -/
def caculateWeekDay (year mon day : Int) : Option Int :=
  if 1 = mon ∨ 2 = mon then do
    let mon ← cint (mon + 12)
    let year ← cint (year - 1)
    kimLarsson year mon day
  else kimLarsson year mon day

/-- The last year all of whose days have a sum that fits an `int`. -/
def weekDayLastYear : Nat := 1717986867

/-- As long as the greatest of the sums fits an `int`, the formula is what it is without a bound. -/
theorem kimLarsson_eq {year mon day : Int} (hy : 0 ≤ year) (hm : 1 ≤ mon) (hd : 1 ≤ day)
    (hfit : day + 2 * mon + 3 * (mon + 1) / 5 + year + year / 4 ≤ intMax)
    (hmon : 3 * (mon + 1) ≤ intMax) :
    kimLarsson year mon day = some ((day + 2 * mon + 3 * (mon + 1) / 5 + year + year / 4
      - year / 100 + year / 400) % 7 + 1) := by
  have hmax : (intMax : Int) = 2147483647 := rfl
  rw [hmax] at hfit hmon
  unfold kimLarsson
  -- nothing is negative, so the divisions round down
  have hthird : (3 * (mon + 1)).tdiv 5 = 3 * (mon + 1) / 5 :=
    Int.tdiv_eq_ediv_of_nonneg (by omega)
  simp only [Int.tdiv_eq_ediv_of_nonneg hy, Option.bind_eq_bind]
  rw [cint_bind (by omega) (by omega), cint_bind (by omega) (by omega),
    cint_bind (by omega) (by omega), cint_bind (by omega) (by omega), hthird,
    cint_bind (by omega) (by omega), cint_bind (by omega) (by omega),
    cint_bind (by omega) (by omega), cint_bind (by omega) (by omega),
    cint_bind (by omega) (by omega), Int.tmod_eq_emod_of_nonneg (by omega)]
  exact cint_eq (by omega) (by omega)

/-- The same with natural numbers, for the months `3` to `14`. -/
theorem kimLarsson_natCast {year mon day : Nat} (hm : 1 ≤ mon) (hm' : mon ≤ 14) (hd : 1 ≤ day)
    (hfit : day + 2 * mon + 3 * (mon + 1) / 5 + year + year / 4 ≤ intMax) :
    kimLarsson year mon day = some (((day + 2 * mon + 3 * (mon + 1) / 5 + year + year / 4
      - year / 100 + year / 400) % 7 + 1 : Nat) : Int) := by
  have hmax : (intMax : Int) = 2147483647 := rfl
  have hless : year / 100 ≤ day + 2 * mon + 3 * (mon + 1) / 5 + year + year / 4 := by omega
  rw [kimLarsson_eq (by omega) (by omega) (by omega) (by exact_mod_cast hfit) (by omega)]
  push_cast [hless]
  rfl

/-- The sum of the days of a date and the sum of the formula differ by a multiple of seven: in a
year that begins with March the months have 153 days in five. -/
theorem kimLarsson_isoWeekday {d : Date} (hv : d.Valid) (hy : 1 ≤ d.year) {year mon : Nat}
    (hs : (d.month ≤ 2 ∧ mon = d.month + 12 ∧ year = d.year - 1) ∨
      (3 ≤ d.month ∧ mon = d.month ∧ year = d.year)) :
    (d.day + 2 * mon + 3 * (mon + 1) / 5 + year + year / 4 - year / 100 + year / 400) % 7 + 1
      = isoWeekday d := by
  obtain ⟨⟨hm, hm'⟩, hd, hd'⟩ := hv
  have hmonths := daysBeforeMonth_eq d.year hm hm'
  unfold isoWeekday dayNumber
  rw [hmonths]
  have hless : year / 100 ≤ year / 4 := by omega
  rcases hs with ⟨hle, hmon, hyear⟩ | ⟨hle, hmon, hyear⟩
  · -- January and February: the leap days of the years up to `year`
    have hyears := daysBeforeYear_eq d.year
    rw [if_pos hle]
    obtain rfl : mon = d.month + 12 := hmon
    have h4 : (d.year + 3) / 4 = year / 4 + 1 := by omega
    have h100 : (d.year + 99) / 100 = year / 100 + 1 := by omega
    have h400 : (d.year + 399) / 400 = year / 400 + 1 := by omega
    rw [h4, h100, h400] at hyears
    have hcases : d.month = 1 ∨ d.month = 2 := by omega
    rcases hcases with h | h <;> rw [h] <;> omega
  · -- from March on the leap day of the year itself counts
    have hyears := daysBeforeYear_leap d.year
    rw [if_neg (by omega)]
    obtain rfl : mon = d.month := hmon
    obtain rfl : year = d.year := hyear
    have hmonth : (153 * (d.month - 3) + 2) / 5 + 92 = 30 * d.month + 3 * (d.month + 1) / 5 := by
      omega
    have hdiff : daysBeforeYear d.year + ((153 * (d.month - 3) + 2) / 5 + 59 +
          if isLeap d.year then 1 else 0) + (d.day - 1) + 5
        = d.day + 2 * d.month + 3 * (d.month + 1) / 5 + d.year + d.year / 4 - d.year / 100
          + d.year / 400 + 7 * (52 * d.year + 4 * (d.month - 1)) := by
      generalize (153 * (d.month - 3) + 2) / 5 = x at *
      generalize 3 * (d.month + 1) / 5 = z at *
      generalize d.year / 4 = a at *
      generalize d.year / 100 = b at *
      generalize d.year / 400 = c at *
      generalize (if isLeap d.year = true then 1 else 0) = l at *
      clear hmonths
      omega
    rw [hdiff, Nat.add_mul_mod_self_left]

/-- The formula and the calendar agree on every date whose sums fit. -/
theorem caculateWeekDay_isoWeekday {d : Date} (hv : d.Valid) (hy : 1583 ≤ d.year)
    (hlast : d.year ≤ weekDayLastYear) :
    caculateWeekDay d.year d.month d.day = some (isoWeekday d : Int) := by
  have hmax : intMax = 2147483647 := rfl
  have hyear : d.year ≤ 1717986867 := hlast
  have hday := hv.2.2.trans (daysInMonth_le d.year d.month)
  obtain ⟨⟨hm, hm'⟩, hd, -⟩ := id hv
  unfold caculateWeekDay
  by_cases hjan : d.month ≤ 2
  · have hmon : (d.month : Int) + 12 = (d.month + 12 : Nat) := rfl
    have hpred : (d.year : Int) - 1 = (d.year - 1 : Nat) := by omega
    -- the last year is not a leap year, otherwise its 29th of February would be too much
    have hfeb : d.month = 1 ∨ d.day ≤ 28 ∨ d.day = 29 ∧ d.year % 4 = 0 := by
      by_cases h : d.month = 2
      · have hle := hv.2.2
        rw [h] at hle
        have hfeb := daysInMonth_february hle
        omega
      · omega
    rw [if_pos (by omega), Option.bind_eq_bind, cint_bind (by omega) (by omega), hmon, hpred,
      cint_bind (by omega) (by omega),
      kimLarsson_natCast (by omega) (by omega) hd (by omega),
      kimLarsson_isoWeekday hv (by omega) (.inl ⟨hjan, rfl, rfl⟩)]
  · rw [if_neg (by omega), kimLarsson_natCast hm (by omega) hd (by omega),
      kimLarsson_isoWeekday hv (by omega) (.inr ⟨by omega, rfl, rfl⟩)]

/-- **`CaculateWeekDay` is the ISO weekday** of every date from 1583 on, up to the year in which its
sums no longer fit an `int`; the next date has the next weekday. -/
theorem caculateWeekDay_eq {d : Date} (hv : d.Valid) (hy : 1583 ≤ d.year)
    (hlast : d.year ≤ weekDayLastYear) :
    caculateWeekDay d.year d.month d.day = some (isoWeekday d : Int) ∧
      (d.next.year ≤ weekDayLastYear →
        caculateWeekDay d.next.year d.next.month d.next.day =
          some (isoWeekday d % 7 + 1 : Nat)) := by
  constructor
  · exact caculateWeekDay_isoWeekday hv hy hlast
  · intro hnext
    rw [← isoWeekday_next hv]
    exact caculateWeekDay_isoWeekday (valid_next hv) (hy.trans d.year_le_next) hnext

/-- The weekday of the last day that does not overflow. -/
theorem caculateWeekDay_last :
    caculateWeekDay 1717986867 12 31 = some (isoWeekday ⟨1717986867, 12, 31⟩ : Int) :=
  (caculateWeekDay_eq (d := ⟨1717986867, 12, 31⟩) (by decide) (by decide) (by decide)).1

/-- In later years the sum overflows. Where an `int` wraps around, 15 June 1728400000 gets weekday
0; it is a Thursday. -/
theorem not_caculateWeekDay :
    ¬ ∀ d : Date, d.Valid → 1583 ≤ d.year → d.year ≤ intMax →
      caculateWeekDay d.year d.month d.day = some (isoWeekday d : Int) := by
  intro h
  have hd := h ⟨1728400000, 6, 15⟩ (by decide) (by decide) (by decide)
  have hnone : caculateWeekDay 1728400000 6 15 = none := by decide
  exact Option.some_ne_none _ (hd.symm.trans hnone)

end OnuFirmware.Central

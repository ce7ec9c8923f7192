/-!
# The Gregorian calendar

Days are counted from 1 January of the year 0, and the calendar is carried back and forth beyond
the years in which it was in use. `dayNumber` counts the days before a date, `Date.ofDay` finds
the date of a day.
-/

namespace DeviceScope.Calendar

/-- Whether a year has a 29 February. -/
def isLeap (year : Int) : Bool :=
  year % 4 = 0 && (year % 100 ≠ 0 || year % 400 = 0)

/-- The number of days before 1 January of a year. -/
def daysBeforeYear (year : Int) : Int :=
  365 * year + (year + 3) / 4 - (year + 99) / 100 + (year + 399) / 400

def monthLengths (year : Int) : List Nat :=
  [31, if isLeap year then 29 else 28, 31, 30, 31, 30, 31, 31, 30, 31, 30, 31]

/-- The length of a month, counted from one; zero for a month that does not exist. -/
def monthLength (year : Int) (month : Nat) : Nat :=
  if month = 0 then 0 else (monthLengths year).getD (month - 1) 0

/-- A date. -/
structure Date where
  year : Int
  /-- The month, counted from one. -/
  month : Nat
  /-- The day of the month, counted from one. -/
  day : Nat
  deriving DecidableEq, Repr

def Date.isValid (date : Date) : Bool :=
  1 ≤ date.day && date.day ≤ monthLength date.year date.month

/-- The number of days of a year that lie before one of its months. -/
def daysBeforeMonth (year : Int) (month : Nat) : Nat :=
  ((monthLengths year).take (month - 1)).foldr (· + ·) 0

def Date.dayNumber (date : Date) : Int :=
  daysBeforeYear date.year + daysBeforeMonth date.year date.month + date.day - 1

/-- The year in which a day lies. The first guess, from the mean length of a year, is off by one
at most. -/
def yearOf (day : Int) : Int :=
  let guess := day * 400 / 146097
  if daysBeforeYear (guess + 1) ≤ day then guess + 1
  else if day < daysBeforeYear guess then guess - 1
  else guess

/-- The month and the day of the month, both counted from one, of the `rest`-th day, counted from
zero, of the months from `month` on. -/
def splitMonths (month rest : Nat) : List Nat → Nat × Nat
  | [] => (month, rest + 1)
  | length :: lengths =>
    if rest < length then (month, rest + 1) else splitMonths (month + 1) (rest - length) lengths

def Date.ofDay (day : Int) : Date :=
  let year := yearOf day
  let split := splitMonths 1 (day - daysBeforeYear year).toNat (monthLengths year)
  ⟨year, split.1, split.2⟩

theorem daysBeforeYear_succ (year : Int) :
    daysBeforeYear (year + 1) = daysBeforeYear year + (if isLeap year then 366 else 365) := by
  simp only [daysBeforeYear, isLeap, Bool.and_eq_true, Bool.or_eq_true, decide_eq_true_eq]
  split <;> omega

/-- A day lies in its year. -/
theorem yearOf_spec (day : Int) :
    daysBeforeYear (yearOf day) ≤ day ∧ day < daysBeforeYear (yearOf day + 1) := by
  simp only [yearOf]
  split
  · next h => exact ⟨h, by simp only [daysBeforeYear] at *; omega⟩
  · next h =>
    split
    · next h' =>
      refine ⟨by simp only [daysBeforeYear] at *; omega, ?_⟩
      rw [Int.sub_add_cancel]; exact h'
    · next h' => exact ⟨Int.not_lt.1 h', Int.not_le.1 h⟩

example : Date.ofDay 0 = ⟨0, 1, 1⟩ := by decide
example : Date.ofDay (-1) = ⟨-1, 12, 31⟩ := by decide
example : (Date.mk 1970 1 1).dayNumber = 719528 := by decide
example : Date.ofDay 738886 = ⟨2023, 1, 1⟩ := by decide
example : Date.ofDay 739281 = ⟨2024, 1, 31⟩ := by decide

end DeviceScope.Calendar

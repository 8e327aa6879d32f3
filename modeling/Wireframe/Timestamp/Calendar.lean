/-!
# Dates of the calendar

The Gregorian calendar, continued to all years. Days are counted from the first of January 1970.
For the count a year begins in March, so that the day that leap years add is its last, and 400
years are one turn of the calendar.
-/

namespace Wireframe

structure Date where
  year : Int
  /-- From 1 to 12. -/
  month : Nat
  /-- From 1 to the length of the month. -/
  day : Nat
deriving Repr, DecidableEq

namespace Date

def isLeap (year : Int) : Bool :=
  year % 4 = 0 ∧ (year % 100 ≠ 0 ∨ year % 400 = 0)

def monthLength (year : Int) (month : Nat) : Nat :=
  if month = 2 then if isLeap year then 29 else 28
  else if month ∈ [4, 6, 9, 11] then 30
  else 31

/-- Whether a date is one of the calendar. -/
def isValid (d : Date) : Bool :=
  1 ≤ d.month ∧ d.month ≤ 12 ∧ 1 ≤ d.day ∧ d.day ≤ monthLength d.year d.month

/-- The days of 400 years. -/
def turn : Int := 146097

/-- The days from the first of March of the year 0 to the first of January 1970. -/
def offset : Int := 719468

/-- The days from the first of January 1970 to a date. -/
def toDays (d : Date) : Int :=
  let year := if d.month ≤ 2 then d.year - 1 else d.year
  let month : Int := if d.month ≤ 2 then d.month + 9 else d.month - 3
  let yearOfTurn := year % 400
  let dayOfYear := (153 * month + 2) / 5 + d.day - 1
  let dayOfTurn := yearOfTurn * 365 + yearOfTurn / 4 - yearOfTurn / 100 + dayOfYear
  year / 400 * turn + dayOfTurn - offset

/-- The date so many days from the first of January 1970. -/
def ofDays (days : Int) : Date :=
  let days := days + offset
  let dayOfTurn := days % turn
  let yearOfTurn :=
    (dayOfTurn - dayOfTurn / 1460 + dayOfTurn / 36524 - dayOfTurn / 146096) / 365
  let dayOfYear := dayOfTurn - (365 * yearOfTurn + yearOfTurn / 4 - yearOfTurn / 100)
  let month := (5 * dayOfYear + 2) / 153
  let day := dayOfYear - (153 * month + 2) / 5 + 1
  let year := days / turn * 400 + yearOfTurn
  if month < 10 then ⟨year, (month + 3).toNat, day.toNat⟩
  else ⟨year + 1, (month - 9).toNat, day.toNat⟩

end Date

end Wireframe

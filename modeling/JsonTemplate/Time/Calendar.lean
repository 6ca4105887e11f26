import JsonTemplate.Text.Numeral

set_option autoImplicit false

/-!
# The calendar

Dates of the Gregorian calendar, extended back to year 1, and their count of days.
The count starts with day zero on the first of January of year 1, a Monday.
-/

namespace JsonTemplate

structure Date where
  year : Nat
  month : Nat
  day : Nat
deriving DecidableEq, Repr

namespace Calendar

def lastYear : Nat := 9999

def isLeap (year : Nat) : Bool :=
  year % 4 = 0 && (year % 100 ≠ 0 || year % 400 = 0)

def monthLengths (year : Nat) : List Nat :=
  [31, if isLeap year then 29 else 28, 31, 30, 31, 30, 31, 31, 30, 31, 30, 31]

/-- The length of a month; zero for a month that does not exist. -/
def daysInMonth (year month : Nat) : Nat :=
  if month = 0 then 0 else ((monthLengths year)[month - 1]?).getD 0

def daysBeforeYear (year : Nat) : Nat :=
  let past := year - 1
  365 * past + past / 4 - past / 100 + past / 400

def days : Nat := daysBeforeYear (lastYear + 1)

/-- The month, counted from zero, and the day within it, counted from zero, of a day
of the year. -/
def splitMonths : (lengths : List Nat) → (day : Nat) → Nat × Nat
  | [], day => (0, day)
  | length :: rest, day =>
      if day < length then (0, day)
      else
        let (month, day) := splitMonths rest (day - length)
        (month + 1, day)

/-- The year of a day count, and the day of that year counted from zero. Four
centuries have 146097 days, a century 36524, four years 1461; the last day of a
longer period belongs to its last year. -/
def splitYears (count : Nat) : Nat × Nat :=
  let inFourCenturies := count % 146097
  let centuries := inFourCenturies / 36524
  let inCentury := inFourCenturies % 36524
  let fours := inCentury / 1461
  let inFour := inCentury % 1461
  let singles := inFour / 365
  let year := count / 146097 * 400 + centuries * 100 + fours * 4 + singles
  if centuries = 4 ∨ singles = 4 then (year, 365) else (year + 1, inFour % 365)

def weekday (count : Nat) : Nat := count % 7

/-- The Monday of a year's first week, the week that holds the fourth of January. The
count is an integer since that Monday may lie in the year before. -/
def firstMonday (year : Nat) : Int :=
  let start := daysBeforeYear year
  let day := weekday start
  if day ≤ 3 then (start : Int) - day else (start : Int) + 7 - day

/-- Years with a fifty-third week: those that begin on a Thursday, and leap years that
begin on a Wednesday. -/
def hasLongYear (year : Nat) : Bool :=
  let day := weekday (daysBeforeYear year)
  day = 3 || (day = 2 && isLeap year)

end Calendar

namespace Date

def isValid (date : Date) : Bool :=
  1 ≤ date.year && date.year ≤ Calendar.lastYear && 1 ≤ date.day &&
    date.day ≤ Calendar.daysInMonth date.year date.month

def toDays (date : Date) : Nat :=
  Calendar.daysBeforeYear date.year +
    ((Calendar.monthLengths date.year).take (date.month - 1)).foldr (· + ·) 0 + (date.day - 1)

def ofDays (count : Nat) : Date :=
  let (year, day) := Calendar.splitYears count
  let (month, day) := Calendar.splitMonths (Calendar.monthLengths year) day
  ⟨year, month + 1, day + 1⟩

def render (date : Date) : Text :=
  Numeral.padded 4 date.year ++ .scalar '-' :: Numeral.padded 2 date.month ++
    .scalar '-' :: Numeral.padded 2 date.day

end Date

end JsonTemplate

set_option autoImplicit false

namespace DeckBinding.Calendar

/-- A day of the proleptic Gregorian calendar. -/
structure Date where
  year : Nat
  month : Nat
  day : Nat
deriving DecidableEq, Inhabited

inductive DateError where
  | year (value : Nat)
  | month
  | day
deriving DecidableEq

def DateError.message : DateError → String
  | .year value => s!"year {value} is out of range"
  | .month => "month must be in 1..12"
  | .day => "day is out of range for month"

/-- Years divisible by four are leap years, except those divisible by 100 and not by 400. -/
def isLeapYear (year : Nat) : Bool :=
  year % 4 == 0 && (year % 100 != 0 || year % 400 == 0)

def daysInMonth (year month : Nat) : Nat :=
  if month == 2 then (if isLeapYear year then 29 else 28)
  else if month == 4 || month == 6 || month == 9 || month == 11 then 30
  else 31

/-- The day of the years 1 to 9999 with these numbers. -/
def Date.ofNumbers (year month day : Nat) : Except DateError Date :=
  if year < 1 ∨ 9999 < year then .error (.year year)
  else if month < 1 ∨ 12 < month then .error .month
  else if day < 1 ∨ daysInMonth year month < day then .error .day
  else .ok ⟨year, month, day⟩

/-- The days before the first of January of a year, counted from the year 1. -/
def daysBeforeYear (year : Nat) : Nat :=
  let past := year - 1
  past * 365 + past / 4 - past / 100 + past / 400

def daysBeforeMonth (year month : Nat) : Nat :=
  ((List.range (month - 1)).map fun m => daysInMonth year (m + 1)).foldl (· + ·) 0

/-- The number of a day, one for the first of January of the year 1. -/
def Date.ordinal (date : Date) : Nat :=
  daysBeforeYear date.year + daysBeforeMonth date.year date.month + date.day

/-- The day of the week, zero for Monday. -/
def Date.weekday (date : Date) : Nat :=
  (date.ordinal + 6) % 7

/-- The month that holds a day of a year, counted from one, with the day in it. -/
def monthOfYearDay (year : Nat) : Nat → Nat → Nat → Nat × Nat
  | 0, month, day => (month, day)
  | tries + 1, month, day =>
    let size := daysInMonth year month
    if size < day then monthOfYearDay year tries (month + 1) (day - size) else (month, day)

/-- The day with a number, given a year that starts at most one year too early or too late. -/
def dateOfOrdinal (year ordinal : Nat) : Nat × Nat × Nat :=
  let year :=
    if ordinal ≤ daysBeforeYear year then year - 1
    else if daysBeforeYear (year + 1) < ordinal then year + 1
    else year
  let (month, day) := monthOfYearDay year 11 1 (ordinal - daysBeforeYear year)
  (year, month, day)

/-- The number of the Monday that starts the first week of a year: the week with its first
Thursday. -/
def firstMonday (year : Nat) : Nat :=
  let first := daysBeforeYear year + 1
  let weekday := (first + 6) % 7
  if 3 < weekday then first + 7 - weekday else first - weekday

/-- The day given by year, week of the year and day of the week, Monday being one. -/
def Date.ofWeek? (year week day : Nat) : Option Date :=
  let weeks := (firstMonday (year + 1) - firstMonday year) / 7
  if year < 1 ∨ 9999 < year ∨ week < 1 ∨ weeks < week ∨ day < 1 ∨ 7 < day then none
  else
    let (y, m, d) := dateOfOrdinal year (firstMonday year + 7 * (week - 1) + day - 1)
    (Date.ofNumbers y m d).toOption

end DeckBinding.Calendar

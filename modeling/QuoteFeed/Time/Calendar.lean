/-!
# The calendar

Days counted from 1 January 1970 and dates of the Gregorian calendar, extended to all years.
Years are counted from March here, so that the leap day is the last of its year, and grouped
into eras of four hundred, which all have the same length.
-/

namespace QuoteFeed.Time

/-- A date: a year, a month from 1 and a day from 1. -/
structure Date where
  year : Int
  month : Nat
  day : Nat
  deriving DecidableEq

/-- The number of days in an era of four hundred years. -/
def daysPerEra : Int := 146097

/-- The days from 1 March of the year 0 to 1 January 1970. -/
def epochOffset : Int := 719468

/-- The date of a day. -/
def dateOfDay (day : Int) : Date :=
  let z := day + epochOffset
  let era := z / daysPerEra
  let doe := (z % daysPerEra).toNat
  let yoe := (doe - doe / 1460 + doe / 36524 - doe / 146096) / 365
  let doy := doe - (365 * yoe + yoe / 4 - yoe / 100)
  let mp := (5 * doy + 2) / 153
  let month := if mp < 10 then mp + 3 else mp - 9
  { year := era * 400 + yoe + (if month ≤ 2 then 1 else 0)
    month
    day := doy - (153 * mp + 2) / 5 + 1 }

/-- The day of a date. -/
def dayOfDate (d : Date) : Int :=
  let y := d.year - (if d.month ≤ 2 then 1 else 0)
  let era := y / 400
  let yoe := (y % 400).toNat
  let mp := if d.month > 2 then d.month - 3 else d.month + 9
  let doy := (153 * mp + 2) / 5 + d.day - 1
  let doe := yoe * 365 + yoe / 4 - yoe / 100 + doy
  era * daysPerEra + doe - epochOffset

/-- A leap year. -/
def isLeap (year : Int) : Bool :=
  year % 4 == 0 && (year % 100 != 0 || year % 400 == 0)

/-- The number of days of a month. -/
def daysInMonth (year : Int) (month : Nat) : Nat :=
  if month = 2 then (if isLeap year then 29 else 28)
  else if month = 4 ∨ month = 6 ∨ month = 9 ∨ month = 11 then 30
  else 31

/-- A date that the calendar has. -/
def Date.isValid (d : Date) : Bool :=
  1 ≤ d.month && d.month ≤ 12 && 1 ≤ d.day && d.day ≤ daysInMonth d.year d.month

end QuoteFeed.Time

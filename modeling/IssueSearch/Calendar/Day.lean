/-! # Days of the calendar

    Days are counted from the first of January 1970 in the Gregorian calendar,
    extended without limit in both directions.

    * `ofCivil`: the count of a year, month and day.
    * `toCivil`: the year, month and day of a count.

    Both count years from March, so that the leap day comes last, and group
    them into cycles of four hundred years, which all have `146097` days. -/

namespace IssueSearch.Calendar

/-- A year, month and day. -/
structure Civil where
  year  : Int
  month : Nat
  day   : Nat
deriving DecidableEq

/-- Does the year have a leap day? -/
def isLeap (year : Int) : Bool :=
  year % 4 == 0 && (year % 100 != 0 || year % 400 == 0)

/-- Number of days in a month; zero for a month that does not exist. -/
def monthLength (year : Int) (month : Nat) : Nat :=
  match month with
  | 1 | 3 | 5 | 7 | 8 | 10 | 12 => 31
  | 4 | 6 | 9 | 11 => 30
  | 2 => if isLeap year then 29 else 28
  | _ => 0

/-- Does the date exist? -/
def Civil.isValid (c : Civil) : Bool :=
  1 ≤ c.day && c.day ≤ monthLength c.year c.month

/-- Days from the first of March of the year `0` to the start of the count. -/
def epochShift : Int := 719468

/-- Days in a cycle of four hundred years. -/
def cycleDays : Int := 146097

/-- Days before the given year of a cycle. -/
def daysBeforeYear (year : Int) : Int :=
  365 * year + year / 4 - year / 100

/-- Days before the given month, counted from March. -/
def daysBeforeMonth (month : Int) : Int :=
  (153 * month + 2) / 5

/-- The count of a date. -/
def ofCivil (c : Civil) : Int :=
  let year := if c.month ≤ 2 then c.year - 1 else c.year
  let month : Int := if c.month ≤ 2 then c.month + 9 else c.month - 3
  let yearOfCycle := year % 400
  year / 400 * cycleDays + daysBeforeYear yearOfCycle + daysBeforeMonth month + (c.day - 1)
    - epochShift

/-- The date of a count. -/
def toCivil (n : Int) : Civil :=
  let shifted := n + epochShift
  let dayOfCycle := shifted % cycleDays
  let yearOfCycle :=
    (dayOfCycle - dayOfCycle / 1460 + dayOfCycle / 36524 - dayOfCycle / 146096) / 365
  let dayOfYear := dayOfCycle - daysBeforeYear yearOfCycle
  let month := (5 * dayOfYear + 2) / 153
  let day := dayOfYear - daysBeforeMonth month + 1
  let year := shifted / cycleDays * 400 + yearOfCycle
  if month < 10 then
    { year := year, month := (month + 3).toNat, day := day.toNat }
  else
    { year := year + 1, month := (month - 9).toNat, day := day.toNat }

end IssueSearch.Calendar

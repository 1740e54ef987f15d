import IssueSearch.Calendar.Day

/-! # Dates with a time of day

    A `DateTime` is a day of the calendar and a nanosecond within that day.
    Days run from the first of January of the year `-262143` to the last of
    December of the year `262142`; moving beyond either end fails.

    Every day has the same length: there are no leap seconds.  A time with a
    second of sixty does not exist, so it can be neither held nor read. -/

namespace IssueSearch.Calendar

/-- The first day, `-262143-01-01`. -/
def firstDay : Int := -96465292

/-- The last day, `262142-12-31`. -/
def lastDay : Int := 95026236

/-- Nanoseconds in a second. -/
def nanosPerSecond : Nat := 1000000000

/-- Nanoseconds in a day. -/
def nanosPerDay : Nat := 86400 * nanosPerSecond

/-- A day and a nanosecond of that day. -/
structure DateTime where
  /-- Days since 1970-01-01. -/
  day      : Int
  /-- Nanoseconds since midnight. -/
  nanos    : Nat
  day_ge   : firstDay ≤ day
  day_le   : day ≤ lastDay
  nanos_lt : nanos < nanosPerDay
deriving DecidableEq

namespace DateTime

/-- The date-time of a day count and a time of day, if both are in range. -/
def ofDay? (day : Int) (nanos : Nat) : Option DateTime :=
  if h : firstDay ≤ day ∧ day ≤ lastDay ∧ nanos < nanosPerDay then
    some { day := day, nanos := nanos, day_ge := h.1, day_le := h.2.1, nanos_lt := h.2.2 }
  else
    none

/-- The date-time of a calendar date, if the date exists and is in range. -/
def ofCivil? (c : Civil) (nanos : Nat) : Option DateTime :=
  if c.isValid then ofDay? (ofCivil c) nanos else none

/-- Nanoseconds since midnight of a clock time, if the time exists.  A leap
    second, which would be a second of sixty, does not. -/
def nanosOfClock? (hour minute second nano : Nat) : Option Nat :=
  if hour < 24 ∧ minute < 60 ∧ second < 60 ∧ nano < nanosPerSecond then
    some (((hour * 60 + minute) * 60 + second) * nanosPerSecond + nano)
  else
    none

/-- Moves a date-time by a number of days, keeping the time of day. -/
def addDays? (d : DateTime) (days : Int) : Option DateTime :=
  ofDay? (d.day + days) d.nanos

/-- The calendar date. -/
def civil (d : DateTime) : Civil := toCivil d.day

/-- The hour of the day. -/
def hour (d : DateTime) : Nat := d.nanos / nanosPerSecond / 3600

/-- The minute of the hour. -/
def minute (d : DateTime) : Nat := d.nanos / nanosPerSecond / 60 % 60

/-- The second of the minute. -/
def second (d : DateTime) : Nat := d.nanos / nanosPerSecond % 60

/-- The nanosecond of the second. -/
def nano (d : DateTime) : Nat := d.nanos % nanosPerSecond

/-- Earlier dates first. -/
def order (a b : DateTime) : Ordering :=
  if a.day < b.day then .lt
  else if b.day < a.day then .gt
  else if a.nanos < b.nanos then .lt
  else if b.nanos < a.nanos then .gt
  else .eq

end DateTime

end IssueSearch.Calendar

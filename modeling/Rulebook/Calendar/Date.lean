/-
  Dates of the calendar, years 1 to 9999.

  * `Date.check` accepts exactly the dates that exist and names the part that
    is out of range otherwise;
  * `ordinal` counts days, the first day of year 1 being day 1, and
    `ofOrdinal` is the date of a day;
  * `ofWeek?` reads a week date: year, week and day of the week.
-/

namespace Rulebook.Calendar

/-- A year, a month and a day. -/
structure Date where
  year : Nat
  month : Nat
  day : Nat
  deriving DecidableEq, Repr

/-- A part of a date or time that is out of range. -/
inductive RangeFault where
  | year (n : Nat)
  | month
  | day
  | hour
  | minute
  | second
  | offset
  deriving DecidableEq, Repr

/-- What a fault says. -/
def RangeFault.message : RangeFault → String
  | year n => s!"year {n} is out of range"
  | month => "month must be in 1..12"
  | day => "day is out of range for month"
  | hour => "hour must be in 0..23"
  | minute => "minute must be in 0..59"
  | second => "second must be in 0..59"
  | offset => "offset must be strictly between a day before and a day after"

/-- The last year. -/
def lastYear : Nat := 9999

/-- A year of 366 days. -/
def isLeap (year : Nat) : Bool := year % 4 = 0 && (year % 100 ≠ 0 || year % 400 = 0)

/-- The number of days in a month. -/
def daysInMonth (year month : Nat) : Nat :=
  if month = 2 then (if isLeap year then 29 else 28)
  else if month = 4 || month = 6 || month = 9 || month = 11 then 30
  else 31

/-- The days of the years before `year`. -/
def daysBeforeYear (year : Nat) : Nat :=
  let y := year - 1
  y * 365 + y / 4 - y / 100 + y / 400

/-- The days of the months of a year before `month`. -/
def daysBeforeMonth (year : Nat) : Nat → Nat
  | m + 2 => daysBeforeMonth year (m + 1) + daysInMonth year (m + 1)
  | _ => 0

namespace Date

/-- The date with these parts, or the part that is out of range. -/
def check (year month day : Nat) : Except RangeFault Date :=
  if year < 1 || lastYear < year then .error (.year year)
  else if month < 1 || 12 < month then .error .month
  else if day < 1 || daysInMonth year month < day then .error .day
  else .ok ⟨year, month, day⟩

/-- The number of the day, the first day of year 1 being day 1. -/
def ordinal (d : Date) : Nat :=
  daysBeforeYear d.year + daysBeforeMonth d.year d.month + d.day

end Date

/-- The month that holds the day with this number in its year, from `month` on;
    `fuel` bounds the months looked at. -/
def monthOfDay (year : Nat) : Nat → Nat → Nat → Nat × Nat
  | 0, month, n => (month, n)
  | fuel + 1, month, n =>
    if n ≤ daysInMonth year month then (month, n)
    else monthOfDay year fuel (month + 1) (n - daysInMonth year month)

/-- The date of a day; day numbers beyond the last year are no date. -/
def Date.ofOrdinal (n : Nat) : Except RangeFault Date :=
  let estimate := n / 366 + 1
  let year := ((List.range (n / 366 / 400 + 30)).find? fun i =>
    n ≤ daysBeforeYear (estimate + i + 1)).getD 0 + estimate
  let (month, day) := monthOfDay year 12 1 (n - daysBeforeYear year)
  Date.check year month day

/-- The day of the week, Monday being 0. -/
def Date.weekday (d : Date) : Nat := (d.ordinal + 6) % 7

/-- The number of the Monday on which the first week of a year begins. -/
def firstMonday (year : Nat) : Nat :=
  let firstDay := daysBeforeYear year + 1
  let weekday := (firstDay + 6) % 7
  let monday := firstDay - weekday
  if 3 < weekday then monday + 7 else monday

/-- A year of 53 weeks. -/
def hasLongYear (year : Nat) : Bool :=
  let weekday := (daysBeforeYear year + 7) % 7
  weekday = 3 || (weekday = 2 && isLeap year)

/-- The date of a day in a week of a year. -/
def Date.ofWeek? (year week day : Nat) : Option Date :=
  if year < 1 || lastYear < year then none
  else if week < 1 || 53 < week || (week = 53 && !hasLongYear year) then none
  else if day < 1 || 7 < day then none
  else (Date.ofOrdinal (firstMonday year + (week - 1) * 7 + (day - 1))).toOption

end Rulebook.Calendar

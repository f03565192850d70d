/-
  Moments — a date, a time of day to the microsecond, and perhaps an offset
  from universal time.

  * `Moment.before?` and `Moment.after?` order moments: by the clock when
    neither has an offset, by the instant when both have one, and not at all
    when only one has;
  * `daysBetween` counts calendar days, whatever the time of day;
  * `Moment.iso` and `Date.iso` write the standard form.
-/
import Rulebook.Calendar.Date

namespace Rulebook.Calendar

/-- A date and time of day; `offset` is in microseconds east of universal time. -/
structure Moment where
  date : Date
  hour : Nat
  minute : Nat
  second : Nat
  microsecond : Nat
  offset : Option Int
  deriving DecidableEq, Repr

/-- The microseconds of a second. -/
def microsecondsPerSecond : Nat := 1000000

/-- The microseconds of a day. -/
def microsecondsPerDay : Nat := 86400 * microsecondsPerSecond

/-- The start of a day. -/
def Date.midnight (d : Date) : Moment := ⟨d, 0, 0, 0, 0, none⟩

namespace Moment

/-- The moment with these parts, or the part that is out of range. -/
def check (year month day hour minute second microsecond : Nat) (offset : Option Int) :
    Except RangeFault Moment := do
  let date ← Date.check year month day
  if 23 < hour then .error .hour
  else if 59 < minute then .error .minute
  else if 59 < second then .error .second
  else if offset.any fun o => microsecondsPerDay ≤ o.natAbs then .error .offset
  else .ok ⟨date, hour, minute, second, microsecond, offset⟩

/-- The microseconds that the clock shows since the day before year 1. -/
def clock (m : Moment) : Int :=
  m.date.ordinal * microsecondsPerDay
    + (((m.hour * 60 + m.minute) * 60 + m.second) * microsecondsPerSecond + m.microsecond : Nat)

/-- The order of two moments; none when only one has an offset. -/
def compare? (a b : Moment) : Option Ordering :=
  match a.offset, b.offset with
  | none, none => some (compare a.clock b.clock)
  | some oa, some ob => some (compare (a.clock - oa) (b.clock - ob))
  | _, _ => none

end Moment

/-- The calendar days from one moment to another. -/
def daysBetween (a b : Moment) : Int := (b.date.ordinal : Int) - a.date.ordinal

/-! ## The standard form -/

/-- A natural in decimal, padded with zeros to a width. -/
def padded (width n : Nat) : String :=
  let ds := toString n
  String.ofList (List.replicate (width - ds.length) '0') ++ ds

/-- A date as `YYYY-MM-DD`. -/
def Date.iso (d : Date) : String :=
  padded 4 d.year ++ "-" ++ padded 2 d.month ++ "-" ++ padded 2 d.day

/-- A fraction of a second, left out when zero. -/
def fractionText (microsecond : Nat) : String :=
  if microsecond = 0 then "" else "." ++ padded 6 microsecond

/-- An offset as `±HH:MM`, with seconds and their fraction where needed. -/
def offsetText (offset : Int) : String :=
  let total := offset.natAbs
  let seconds := total / microsecondsPerSecond
  let fraction := total % microsecondsPerSecond
  (if offset < 0 then "-" else "+") ++ padded 2 (seconds / 3600) ++ ":"
    ++ padded 2 (seconds / 60 % 60)
    ++ (if seconds % 60 = 0 ∧ fraction = 0 then "" else ":" ++ padded 2 (seconds % 60))
    ++ fractionText fraction

/-- A moment as `YYYY-MM-DDTHH:MM:SS`, with a fraction and an offset where it has them. -/
def Moment.iso (m : Moment) : String :=
  m.date.iso ++ "T" ++ padded 2 m.hour ++ ":" ++ padded 2 m.minute ++ ":" ++ padded 2 m.second
    ++ fractionText m.microsecond ++ (m.offset.map offsetText).getD ""

end Rulebook.Calendar

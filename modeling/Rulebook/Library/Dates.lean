/-
  Functions on dates. Null arguments give null.
-/
import Rulebook.Library.Arguments
import Rulebook.Value.Comparison

namespace Rulebook.Library

open Calendar Number

/-- The calendar days from one date to another. -/
def daysApart : Value → Value → Answer
  | .null, _ | _, .null => .ok .null
  | v, w => match v.moment?, w.moment? with
    | some a, some b => .ok (.number (ofInt (daysBetween a b)))
    | _, _ => .error (.ofCause (.mismatch (.notDates "daysBetween")))

/-- The functions on dates, on the day `today`. -/
def dates {ω : Type} (today : Date) : List (Definition ω) := [
  define .date "today" "text" "Returns the current date as ISO-8601 text" []
    ["dueDate AFTER today()"] fun _ => .ok (.text today.iso),
  define .date "daysBetween" "number" "Returns the number of days from start to end"
    [.needed "start" "date" "Start date", .needed "end" "date" "End date"]
    ["daysBetween(startDate, endDate) <= 30"]
    fun args => daysApart (argument args 0) (argument args 1)]

end Rulebook.Library

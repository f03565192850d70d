/-
  Written data — the form in which messages show data of a host: texts quoted,
  numbers in canonical form, lists in brackets and mappings in braces.

  `Data.isWritable` tells the data that can be shown: integers of too many digits
  cannot.
-/
import Rulebook.Data
import Rulebook.Number.Integer
import Rulebook.Text.Quoted

namespace Rulebook

open Text Calendar

/-- Numbers between parentheses after a name. -/
def writtenParts (name : String) (parts : List String) : String :=
  name ++ "(" ++ String.intercalate ", " parts ++ ")"

/-- A date in messages. -/
def Calendar.Date.written (d : Date) : String :=
  writtenParts "datetime.date" [toString d.year, toString d.month, toString d.day]

/-- A span of time in messages: days, seconds and microseconds, the parts that
    are not zero. -/
def writtenSpan (microseconds : Int) : String :=
  let days := microseconds.fdiv microsecondsPerDay
  let rest := (microseconds.fmod microsecondsPerDay).toNat
  let seconds := rest / microsecondsPerSecond
  let fraction := rest % microsecondsPerSecond
  let part (name : String) (n : Int) : List String :=
    if n = 0 then [] else [name ++ "=" ++ toString n]
  let parts := part "days" days ++ part "seconds" seconds ++ part "microseconds" fraction
  writtenParts "datetime.timedelta" (if parts.isEmpty then ["0"] else parts)

/-- An offset from universal time in messages. -/
def writtenOffset (offset : Int) : String :=
  "tzinfo=" ++
    if offset = 0 then "datetime.timezone.utc"
    else writtenParts "datetime.timezone" [writtenSpan offset]

/-- A moment in messages; seconds and their fraction are left out when zero. -/
def Calendar.Moment.written (m : Moment) : String :=
  let clock := [m.date.year, m.date.month, m.date.day, m.hour, m.minute]
  let seconds :=
    if m.microsecond ≠ 0 then [m.second, m.microsecond]
    else if m.second ≠ 0 then [m.second]
    else []
  writtenParts "datetime.datetime"
    ((clock ++ seconds).map toString ++ (m.offset.map writtenOffset).toList)

/-- A truth value in messages. -/
def writtenBoolean (b : Bool) : String := if b then "True" else "False"

/-- A value in messages. -/
def Value.written : Value → String
  | .null => "None"
  | .boolean b => writtenBoolean b
  | .number x => Number.canonicalText x
  | .text s => quoted s

/-- Texts quoted, in brackets. -/
def writtenTexts (texts : List String) : String :=
  "[" ++ String.intercalate ", " (texts.map quoted) ++ "]"

mutual

/-- Data in messages. -/
def Data.written : Data → String
  | .null => "None"
  | .boolean b => writtenBoolean b
  | .integer n => toString n
  | .number x => Number.canonicalText x
  | .text s => quoted s
  | .date d => d.written
  | .moment m => m.written
  | .list items => "[" ++ String.intercalate ", " (writtenItems items) ++ "]"
  | .mapping entries => "\x7b" ++ String.intercalate ", " (writtenEntries entries) ++ "\x7d"

/-- The items of a list in messages. -/
def writtenItems : List Data → List String
  | [] => []
  | d :: ds => d.written :: writtenItems ds

/-- The entries of a mapping in messages. -/
def writtenEntries : List (Data × Data) → List String
  | [] => []
  | (k, d) :: ds => (k.written ++ ": " ++ d.written) :: writtenEntries ds

end

mutual

/-- No integer in the data has too many digits to be written. -/
def Data.isWritable : Data → Bool
  | .integer n => n.natAbs < Nat.pow 10 Number.mostDigits
  | .list items => areWritableItems items
  | .mapping entries => areWritableEntries entries
  | _ => true

/-- The items of a list can be written. -/
def areWritableItems : List Data → Bool
  | [] => true
  | d :: ds => d.isWritable && areWritableItems ds

/-- The entries of a mapping can be written. -/
def areWritableEntries : List (Data × Data) → Bool
  | [] => true
  | (k, d) :: ds => k.isWritable && d.isWritable && areWritableEntries ds

end

end Rulebook

/-
  Reading moments in the ISO-8601 forms.

  A text is a date, then any one character, then a time with perhaps an offset.
  Dates are `YYYY-MM-DD`, `YYYYMMDD`, `YYYY-Www`, `YYYY-Www-D`, `YYYYWww` or
  `YYYYWwwD`; times are `HH`, `HH:MM` or `HH:MM:SS`, the colons all there or all
  left out, with a fraction after a point or a comma.

  * `dateLength` says how many characters the date has, from the characters
    that tell the forms apart;
  * `clockPart` reads a time of day, or the size of an offset;
  * `Moment.ofIso?` is the whole of it.
-/
import Rulebook.Calendar.Moment

namespace Rulebook.Calendar

/-- What stands for the end of a text. -/
def endMark : Char := Char.ofNat 0

/-- The character at an index, or the end mark. -/
def charAt (cs : List Char) (i : Nat) : Char := cs.getD i endMark

/-- An ASCII character. -/
def isAscii (c : Char) : Bool := c.toNat < 128

/-- The value of an ASCII digit. -/
def asciiDigit? (c : Char) : Option Nat :=
  if c.isDigit then some (c.toNat - '0'.toNat) else none

/-- Exactly `count` ASCII digits at the start, their value and what follows. -/
def takeDigits : Nat → Nat → List Char → Option (Nat × List Char)
  | 0, value, cs => some (value, cs)
  | count + 1, value, c :: cs =>
    match asciiDigit? c with
    | some d => takeDigits count (10 * value + d) cs
    | none => none
  | _ + 1, _, [] => none

/-! ## The date -/

/-- The number of characters of the date at the start of a text of at least
    seven characters. Where `-` and a digit follow a week, the dash begins the
    time; digits after a compact week belong to the date when they are odd in
    number. -/
def dateLength (cs : List Char) : Nat :=
  if cs.length = 7 then 7
  else if charAt cs 4 = '-' then
    if charAt cs 5 = 'W' then
      if charAt cs 8 = '-' then (if (charAt cs 10).isDigit then 8 else 10) else 8
    else 10
  else if charAt cs 4 = 'W' then
    let stop := 7 + ((cs.drop 7).takeWhile Char.isDigit).length
    if stop < 9 then stop else if stop % 2 = 0 then 7 else 8
  else 8

/-- A dash, where dashes are used. -/
def takeDash (dashes : Bool) (cs : List Char) : Option (List Char) :=
  if dashes then (match cs with | '-' :: rest => some rest | _ => none) else some cs

/-- A week date after its year. -/
def weekDate? (dashes : Bool) (year : Nat) (cs : List Char) : Option Date := do
  let (week, rest) ← takeDigits 2 0 cs
  if rest.isEmpty then Date.ofWeek? year week 1
  else
    let (day, _) ← takeDigits 1 0 (← takeDash dashes rest)
    Date.ofWeek? year week day

/-- A date. -/
def date? (cs : List Char) : Option Date := do
  let (year, rest) ← takeDigits 4 0 cs
  let dashes := charAt rest 0 = '-'
  let rest := if dashes then rest.drop 1 else rest
  match rest with
  | 'W' :: rest => weekDate? dashes year rest
  | _ =>
    let (month, rest) ← takeDigits 2 0 rest
    let (day, rest) ← takeDigits 2 0 (← takeDash dashes rest)
    if rest.isEmpty then (Date.check year month day).toOption else none

/-! ## The time -/

/-- A time of day, or the size of an offset. -/
structure Clock where
  hour : Nat
  minute : Nat
  second : Nat
  microsecond : Nat

/-- What is left when the parts of a clock have been read. -/
inductive ClockRest where
  /-- The clock ended with its last part. -/
  | ended
  /-- Something follows that is no part of it. -/
  | more
  deriving DecidableEq

/-- The digits of a fraction of a second, to the microsecond; further digits
    are dropped. `length` is the number of characters the clock has left. -/
def fraction? (length : Nat) (cs : List Char) : Option (Nat × ClockRest) := do
  let count := min length 6
  let (value, rest) ← takeDigits count 0 cs
  let more := charAt (rest.dropWhile Char.isDigit) 0 ≠ endMark
  return (value * Nat.pow 10 (6 - count), if more then .more else .ended)

/-- Hours, minutes and seconds, as many as there are, then a fraction. `cs` runs
    on to the end of the text, of which the clock is `length` characters; `parts`
    holds those read, and `colons` whether they stand between colons. One ASCII
    character may stand after the last part, which the caller then judges. -/
def clockParts : Nat → Bool → List Nat → Nat → List Char → Option (List Nat × Nat × ClockRest)
  | 0, _, parts, length, cs => do
    let (micro, rest) ← fraction? length cs
    return (parts, micro, rest)
  | fuel + 1, colons, parts, length, cs => do
    let (value, rest) ← takeDigits 2 0 cs
    let parts := parts ++ [value]
    let c := charAt rest 0
    let colons := if parts.length = 1 then c == ':' else colons
    if length = 3 && !isAscii c then none
    else if length ≤ 3 then return (parts, 0, if c ≠ endMark then .more else .ended)
    else if colons && c == ':' then clockParts fuel colons parts (length - 3) (rest.drop 1)
    else if c = '.' || c = ',' then
      let (micro, rest) ← fraction? (length - 3) (rest.drop 1)
      return (parts, micro, rest)
    else if !colons then clockParts fuel colons parts (length - 2) rest
    else none

/-- A clock in the first `length` characters of a text. -/
def clock? (length : Nat) (cs : List Char) : Option (Clock × ClockRest) := do
  let (parts, micro, rest) ← clockParts 3 true [] length cs
  return (⟨parts.getD 0 0, parts.getD 1 0, parts.getD 2 0, micro⟩, rest)

/-- A character that begins an offset. -/
def beginsOffset (c : Char) : Bool := c = '+' || c = '-' || c = 'Z'

/-- The offset that a sign and a clock stand for; whole seconds of zero are
    universal time. -/
def offsetOf (negative : Bool) (c : Clock) : Int :=
  let seconds := (c.hour * 60 + c.minute) * 60 + c.second
  let total := seconds * microsecondsPerSecond + c.microsecond
  if seconds = 0 then 0 else if negative then -(total : Int) else total

/-- A time of day with perhaps an offset. -/
def time? (cs : List Char) : Option (Clock × Option Int) := do
  let length := (cs.takeWhile (!beginsOffset ·)).length
  let (time, rest) ← clock? length cs
  match cs.drop length with
  | [] => if rest = .more then none else return (time, none)
  | 'Z' :: after => if charAt after 0 = endMark then return (time, some 0) else none
  | sign :: after =>
    let (size, rest) ← clock? after.length after
    if rest = .more then none else return (time, some (offsetOf (sign == '-') size))

/-! ## The whole text -/

/-- The fewest characters of a date. -/
def leastDateLength : Nat := 7

/-- A moment in one of the ISO-8601 forms. A date alone is the start of that day. -/
def Moment.ofIso? (s : String) : Option Moment := do
  let cs := s.toList
  if cs.length < leastDateLength then none
  else
    let n := dateLength cs
    let date ← date? (cs.take n)
    match cs.drop n with
    | [] => return date.midnight
    | _ :: rest =>
      let (time, offset) ← time? rest
      (Moment.check date.year date.month date.day
        time.hour time.minute time.second time.microsecond offset).toOption

end Rulebook.Calendar

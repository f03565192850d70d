/-
  Plain scalars — the forms in which words stand for truth values, numbers, dates
  and null.

  * `isNullForm`, `truthWord?`, `hasWholeForm`, `hasNumberForm` and
    `hasMomentForm` tell which form a word has;
  * `wholeValue`, `numberValue` and `momentValue` are what words of these forms
    stand for.
-/
import Rulebook.Data.Written
import Rulebook.Number.Numeral
import Rulebook.Number.Integer
import Rulebook.Text.LetterCase
import Rulebook.Text.Search
import Rulebook.Yaml.Cursor

namespace Rulebook.Yaml

open Number Text Calendar

/-- Why a text gives no data. -/
inductive ReadFault where
  /-- It is no YAML, or not of the kinds that are understood. -/
  | malformed
  /-- A date that is none. -/
  | badDate (fault : RangeFault)
  /-- An offset of a day or more. -/
  | badOffset (microseconds : Int)
  | badWhole (base : Nat) (text : String)
  /-- A whole number of more digits than are read. -/
  | tooManyDigits (count : Nat)
  | badNumber (text : String)
  deriving DecidableEq

/-- What is said of a fault. -/
def ReadFault.message : ReadFault → String
  | malformed => "YAML parse error"
  | badDate f => f.message
  | badOffset n => "offset must be a timedelta strictly between -timedelta(hours=24) and "
    ++ "timedelta(hours=24), not " ++ writtenSpan n ++ "."
  | badWhole base text => s!"invalid literal for int() with base {base}: " ++ Text.quoted text
  | tooManyDigits n => s!"Exceeds the limit ({mostDigits} digits) for integer string conversion: "
    ++ s!"value has {n} digits; use sys.set_int_max_str_digits() to increase the limit"
  | badNumber text => "could not convert string to float: " ++ Text.quoted text

/-! ## Words -/

/-- A word for null. -/
def isNullForm (s : String) : Bool := ["", "~", "null", "Null", "NULL"].contains s

/-- The truth value of a word in lower case. -/
def truthOf? (s : String) : Option Bool :=
  if ["yes", "true", "on"].contains s then some true
  else if ["no", "false", "off"].contains s then some false
  else none

/-- The truth value of a word: in lower case, in upper case, or with a capital. -/
def truthWord? (s : String) : Option Bool :=
  let cs := s.toList
  let small := cs.map Char.toLower
  let capital := match small with
    | [] => []
    | c :: rest => c.toUpper :: rest
  if cs = small || cs = cs.map Char.toUpper || cs = capital then truthOf? (String.ofList small)
  else none

/-! ## Whole numbers -/

/-- A digit or a separator of digits. -/
def isSpacedDigit (c : Char) : Bool := c.isDigit || c = '_'

/-- A part of a number in base sixty, after the first. -/
def isSixtieth : List Char → Bool
  | [a] => a.isDigit
  | [a, b] => '0' ≤ a && a ≤ '5' && b.isDigit
  | _ => false

/-- A word has the form of a whole number: binary, octal, hexadecimal, decimal,
    or in base sixty. -/
def hasWholeForm (cs : List Char) : Bool :=
  match (takeSign cs).2 with
  | '0' :: 'b' :: ds => !ds.isEmpty && ds.all fun c => c = '0' || c = '1' || c = '_'
  | '0' :: 'x' :: ds => !ds.isEmpty && ds.all fun c => isHexDigit c || c = '_'
  | '0' :: ds => ds.all fun c => ('0' ≤ c && c ≤ '7') || c = '_'
  | c :: ds =>
    match splitOn ':' (c :: ds) with
    | first :: parts => c ≠ '0' && c.isDigit && first.all isSpacedDigit && parts.all isSixtieth
    | [] => false
  | [] => false

/-- The number that digits of a base spell; the number of decimal digits is
    limited. -/
def digitsIn (base : Nat) (cs : List Char) : Except ReadFault Nat :=
  if base = 10 ∧ mostDigits < cs.length then .error (.tooManyDigits cs.length)
  else if !cs.isEmpty && cs.all fun c => isHexDigit c && hexValue c < base then
    .ok (valueIn base cs)
  else .error (.badWhole base (String.ofList cs))

/-- A text without separators of digits. -/
def withoutSeparators (cs : List Char) : List Char := cs.filter (· ≠ '_')

/-- The whole number that a text without sign and separators stands for. -/
def magnitude (cs : List Char) : Except ReadFault Nat :=
  match cs with
  | '0' :: 'b' :: ds => digitsIn 2 ds
  | '0' :: 'x' :: ds => digitsIn 16 ds
  | '0' :: ds => if ds.isEmpty then .ok 0 else digitsIn 8 cs
  | cs => do
    let parts ← (splitOn ':' cs).mapM (digitsIn 10)
    return parts.foldl (fun n part => 60 * n + part) 0

/-- The whole number that a word stands for. -/
def wholeValue (cs : List Char) : Except ReadFault Int := do
  let (negative, digits) := takeSign (withoutSeparators cs)
  return signed negative (← magnitude digits)

/-! ## Numbers -/

/-- An exponent, with its sign, or nothing. -/
def isExponent : List Char → Bool
  | [] => true
  | e :: sign :: ds =>
    (e = 'e' || e = 'E') && (sign = '-' || sign = '+') && !ds.isEmpty && ds.all Char.isDigit
  | _ => false

/-- A point with digits after it, and perhaps an exponent. -/
def isFraction : List Char → Bool
  | '.' :: rest => isExponent (rest.dropWhile isSpacedDigit)
  | _ => false

/-- Words for infinity. -/
def infinityWords : List String := [".inf", ".Inf", ".INF"]

/-- Words for what is no number. -/
def nanWords : List String := [".nan", ".NaN", ".NAN"]

/-- A number in base sixty with a point. -/
def isSixtiethFraction (cs : List Char) : Bool :=
  match splitOn ':' cs with
  | first :: part :: parts =>
    let all := part :: parts
    let last := all.getLastD []
    first.head?.any Char.isDigit && first.all isSpacedDigit && all.dropLast.all isSixtieth
      && isSixtieth (last.takeWhile (· ≠ '.'))
      && match last.dropWhile (· ≠ '.') with
        | '.' :: rest => rest.all isSpacedDigit
        | _ => false
  | _ => false

/-- A word has the form of a number with a point. -/
def hasNumberForm (cs : List Char) : Bool :=
  let body := (takeSign cs).2
  match body with
  | '.' :: c :: _ =>
    (c.isDigit && body.length = cs.length && isFraction body)
      || infinityWords.contains (String.ofList body)
      || nanWords.contains (String.ofList cs)
  | c :: _ =>
    c.isDigit && (isFraction (body.dropWhile isSpacedDigit) || isSixtiethFraction body)
  | [] => false

/-- The double that a numeral without a sign stands for. -/
def numeralOf (cs : List Char) : Except ReadFault Float :=
  match numeral? cs with
  | some d => .ok d.toDouble
  | none => .error (.badNumber (String.ofList cs))

/-- Parts of a number in base sixty, the last one first, each of its weight. -/
def addSixtieths (sum : Float) (weight : Nat) : List Float → Float
  | [] => sum
  | x :: xs => addSixtieths (sum + x * Number.ofNat weight) (weight * 60) xs

/-- The number that a text without a sign stands for. -/
def unsignedNumber (cs : List Char) : Except ReadFault Float :=
  match String.ofList cs with
  | ".inf" => .ok (infinity false)
  | _ =>
    if cs.contains ':' then do
      let parts ← (splitOn ':' cs).mapM numeralOf
      return addSixtieths 0.0 1 parts.reverse
    else numeralOf cs

/-- The number that a word stands for. -/
def numberValue (cs : List Char) : Except ReadFault Float := do
  let (negative, body) := takeSign ((withoutSeparators cs).map Char.toLower)
  if String.ofList body = ".nan" then return (0.0 : Float) / 0.0
  let x ← unsignedNumber body
  return if negative then -x else x

/-! ## Dates -/

/-- A run of digits at the beginning of a text, of some least and some most
    length. -/
def digitRun? (least most : Nat) (cs : List Char) : Option (List Char × List Char) :=
  let run := (cs.take most).takeWhile Char.isDigit
  if least ≤ run.length then some (run, cs.drop run.length) else none

/-- A text without a character at its beginning. -/
def after? (c : Char) : List Char → Option (List Char)
  | [] => none
  | d :: rest => if d = c then some rest else none

/-- The parts of a time. -/
structure Time where
  hour : Nat
  minute : Nat
  second : Nat
  microsecond : Nat
  /-- The offset in microseconds. -/
  offset : Option Int

/-- The offset at the end of a time, and that alone. -/
def offset? (cs : List Char) : Option (Option Int) := do
  match cs.dropWhile isSpace with
  | [] => if cs.isEmpty then some none else none
  | ['Z'] => return some 0
  | sign :: rest =>
    if sign ≠ '+' && sign ≠ '-' then none
    let (hours, rest) ← digitRun? 1 2 rest
    let minutes ← match rest with
      | [] => some []
      | rest => do
        let (minutes, rest) ← digitRun? 2 2 (← after? ':' rest)
        if rest.isEmpty then some minutes else none
    let minutes := valueIn 10 hours * 60 + valueIn 10 minutes
    return some (signed (sign = '-') (minutes * 60 * microsecondsPerSecond))

/-- The time that a text is. -/
def time? (cs : List Char) : Option Time := do
  let (hour, rest) ← digitRun? 1 2 cs
  let (minute, rest) ← digitRun? 2 2 (← after? ':' rest)
  let (second, rest) ← digitRun? 2 2 (← after? ':' rest)
  let (fraction, rest) := match rest with
    | '.' :: rest => (rest.takeWhile Char.isDigit, rest.dropWhile Char.isDigit)
    | rest => ([], rest)
  let microsecond := valueIn 10 ((fraction ++ zeros 6).take 6)
  return ⟨valueIn 10 hour, valueIn 10 minute, valueIn 10 second, microsecond, ← offset? rest⟩

/-- The parts of a date, perhaps with a time. -/
structure Stamp where
  year : Nat
  month : Nat
  day : Nat
  /-- Month and day have two digits each. -/
  full : Bool
  time : Option Time

/-- The time after a date: after a `T`, or after spaces. -/
def timeAfter? : List Char → Option Time
  | [] => none
  | c :: rest =>
    if c = 'T' || c = 't' then time? rest
    else if isSpace c then time? (rest.dropWhile isSpace)
    else none

/-- The date, perhaps with a time, that a text is. -/
def stamp? (cs : List Char) : Option Stamp := do
  let (year, rest) ← digitRun? 4 4 cs
  let (month, rest) ← digitRun? 1 2 (← after? '-' rest)
  let (day, rest) ← digitRun? 1 2 (← after? '-' rest)
  let time ← match rest with
    | [] => some none
    | rest => (timeAfter? rest).map some
  return ⟨valueIn 10 year, valueIn 10 month, valueIn 10 day,
    month.length = 2 && day.length = 2, time⟩

/-- A word has the form of a date; without a time, month and day have two digits
    each. -/
def hasMomentForm (cs : List Char) : Bool :=
  match stamp? cs with
  | some s => s.full || s.time.isSome
  | none => false

/-- The date or moment with these parts; the offset is looked at first. -/
def Stamp.data (s : Stamp) : Except ReadFault Data := do
  match s.time with
  | none => return .date (← (Date.check s.year s.month s.day).mapError .badDate)
  | some t =>
    let offset := t.offset.getD 0
    if microsecondsPerDay ≤ offset.natAbs then throw (.badOffset offset)
    return .moment (← (Moment.check s.year s.month s.day t.hour t.minute t.second
      t.microsecond t.offset).mapError .badDate)

/-- The date or moment that a word stands for. -/
def momentValue (cs : List Char) : Except ReadFault Data :=
  match stamp? cs with
  | none => .error .malformed
  | some s => s.data

end Rulebook.Yaml

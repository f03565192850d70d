/-
  Numeric text — text that reads as a number: `-12.5e3`, with digits of any
  script and blanks around it.

  * `numeral?` reads a numeral without blanks around it;
  * `numericText` says of any text whether it is no number, reads as one, or
    looks like one but is padded with a blank that no numeral may have.
-/
import Rulebook.Number.Decimal
import Rulebook.Text.Blank
import Rulebook.Text.Digit

namespace Rulebook.Number

open Rulebook.Text

/-- An optional sign, and whether it was a minus. -/
def takeSign : List Char → Bool × List Char
  | '-' :: rest => (true, rest)
  | '+' :: rest => (false, rest)
  | cs => (false, cs)

/-- The exponent at the end of a numeral: nothing, or `e`, a sign and digits. -/
def exponentPart? : List Char → Option Int
  | [] => some 0
  | c :: rest =>
    let (negative, ds) := takeSign rest
    if (c = 'e' || c = 'E') && !ds.isEmpty && ds.all isDigit then
      some (signed negative (digitsValue ds))
    else none

/-- Digits before and after an optional point, at least one of them, and what
    follows. -/
def significand? (cs : List Char) : Option (List Char × List Char × List Char) :=
  let whole := cs.takeWhile isDigit
  match cs.dropWhile isDigit with
  | '.' :: rest =>
    let fraction := rest.takeWhile isDigit
    if whole.isEmpty && fraction.isEmpty then none
    else some (whole, fraction, rest.dropWhile isDigit)
  | rest => if whole.isEmpty then none else some (whole, [], rest)

/-- A numeral: an optional sign, digits with an optional point, an optional exponent. -/
def numeral? (cs : List Char) : Option Decimal := do
  let (negative, rest) := takeSign cs
  let (whole, fraction, rest) ← significand? rest
  let e ← exponentPart? rest
  return ⟨negative, digitsValue (whole ++ fraction), e - fraction.length⟩

/-- What a text says as a number. -/
inductive NumericText where
  /-- It does not look like a number. -/
  | other
  /-- It reads as a number. -/
  | number (x : Float)
  /-- It looks like a number, but what pads it keeps it from being read. -/
  | unreadable
  deriving DecidableEq

/-- What a text says as a number. -/
def numericText (s : String) : NumericText :=
  let cs := s.toList
  match numeral? (stripBy isBlank cs) with
  | none => .other
  | some d => if cs.any isInformationSeparator then .unreadable else .number d.toDouble

/-- The double that a bare numeral reads as; zero for other text. -/
def numeralValue (cs : List Char) : Float :=
  match numeral? cs with
  | some d => d.toDouble
  | none => zero false

end Rulebook.Number

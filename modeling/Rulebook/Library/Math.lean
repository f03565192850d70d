/-
  Functions on numbers. Null arguments give null.
-/
import Rulebook.Library.Arguments

namespace Rulebook.Library

open Number

/-- The magnitude. -/
def abs : Value → Answer
  | .null => .ok .null
  | v => do return .number (Number.abs (← numberOf "abs" v))

/-- The integer that a rounding to integers gives, as a number. -/
def toInteger (function : String) (round : Float → Option Int) : Value → Answer
  | .null => .ok .null
  | v => do
    let x ← numberOf function v
    match round x with
    | some n => return .number (ofInt n)
    | none => .error (noInteger x)

/-- Rounding to decimal places, half away from zero; without places, to a whole. -/
def round : Value → Option Value → Answer
  | .null, _ => .ok .null
  | v, places => do
    let x ← numberOf "round" v
    let n ← wholeOf "round" (places.getD (.number 0.0))
    match roundPlaces x n with
    | .ok r => return .number r
    | .error f => .error (.breakdown (.stated .badValue f.message))

/-- A function of one number. -/
def ofOne (function : String) (f : Float → Except ElementaryFault Float) : Value → Answer
  | .null => .ok .null
  | v => do elementary (f (← numberOf function v))

/-- A function of two numbers. -/
def ofTwo (function : String) (f : Float → Float → Except ElementaryFault Float) :
    Value → Value → Answer
  | .null, _ | _, .null => .ok .null
  | v, w => do elementary (f (← numberOf function v) (← numberOf function w))

/-- The natural logarithm, or that in a base. -/
def ln : Value → Value → Answer
  | .null, _ => .ok .null
  | v, .null => do elementary (logarithm (← numberOf "ln" v))
  | v, base => do
    let x ← numberOf "ln" v
    elementary (logarithmIn (← numberOf "ln" base) x)

/-- The arguments that are not null, as numbers. -/
def numbersOf (function : String) (args : List Value) : Except Failure (List Float) :=
  (args.filter (!·.isNull)).mapM (numberOf function)

/-- The first of the numbers than which none after it is better. -/
def best (better : Float → Float → Bool) : List Float → Value
  | [] => .null
  | x :: xs => .number (xs.foldl (fun best y => if better y best then y else best) x)

/-- The least number. -/
def min (args : List Value) : Answer := do
  return best (fun y x => y < x) (← numbersOf "min" args)

/-- The greatest number. -/
def max (args : List Value) : Answer := do
  return best (fun y x => x < y) (← numbersOf "max" args)

/-- The number that most functions on numbers take. -/
def numberParameter : Parameter := .needed "value" "number" "The number"

/-- The functions on numbers. -/
def math {ω : Type} : List (Definition ω) := [
  define .math "abs" "number" "Returns the absolute value" [numberParameter]
    ["abs(balance) < 0.01"] fun args => abs (argument args 0),
  define .math "ceil" "number" "Rounds up to the nearest whole number" [numberParameter]
    ["ceil(2.3) = 3"] fun args => toInteger "ceil" ceil? (argument args 0),
  define .math "floor" "number" "Rounds down to the nearest whole number" [numberParameter]
    ["floor(2.7) = 2"] fun args => toInteger "floor" floor? (argument args 0),
  define .math "round" "number" "Rounds half away from zero to the given decimal places"
    [numberParameter, .optional "decimals" "number" "Decimal places"]
    ["round(price * 1.08, 2)"] fun args => round (argument args 0) args[1]?,
  define .math "sqrt" "number" "Returns the square root" [numberParameter]
    ["sqrt(16) = 4"] fun args => ofOne "sqrt" squareRoot (argument args 0),
  define .math "exp" "number" "Returns e raised to the given power" [numberParameter]
    [] fun args => ofOne "exp" exponential (argument args 0),
  define .math "ln" "number" "Natural logarithm, or logarithm in the given base"
    [numberParameter, .optional "base" "number" "Logarithm base"]
    ["ln(8, 2) = 3"] fun args => ln (argument args 0) (argument args 1),
  define .math "fmod" "number" "Remainder of x / y, with the sign of x"
    [.needed "x" "number" "Dividend", .needed "y" "number" "Divisor"]
    ["fmod(7, 3) = 1"] fun args => ofTwo "fmod" remainder (argument args 0) (argument args 1),
  define .math "pow" "number" "Raises x to the power y"
    [.needed "x" "number" "Base", .needed "y" "number" "Exponent"]
    [] fun args => ofTwo "pow" power (argument args 0) (argument args 1),
  define .math "min" "number" "Returns the smallest of the non-null arguments"
    [.needed "first" "number" "First value", .rest "rest" "number" "More values"]
    ["min(quantity, stock) > 0"] min,
  define .math "max" "number" "Returns the largest of the non-null arguments"
    [.needed "first" "number" "First value", .rest "rest" "number" "More values"]
    ["max(1, 5, 3) = 5"] max,
  define .math "pi" "number" "The constant pi" [] [] fun _ => .ok (.number circleRatio)]

end Rulebook.Library

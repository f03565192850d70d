/-
  Elementary functions — powers, exponentials, logarithms, roots and
  remainders, with a cause instead of a value where there is no real result or
  none that a double can hold.

  The remainder is exact arithmetic on significands. Powers, exponentials and
  logarithms of finite numbers are the machine's; what infinities and NaN give
  is said here.
-/
import Rulebook.Number.Double

namespace Rulebook.Number

/-- Why an elementary function has no value. -/
inductive ElementaryFault where
  /-- No real number is the result. -/
  | domain
  /-- The result lies beyond the largest double. -/
  | range
  /-- A logarithm in base one. -/
  | divisionByZero
  deriving DecidableEq, Repr

/-- What a fault says. -/
def ElementaryFault.message : ElementaryFault → String
  | domain => "math domain error"
  | range => "math range error"
  | divisionByZero => "float division by zero"

/-- An odd whole number. -/
def isOddWhole (x : Float) : Bool :=
  match parts x with
  | .finite _ m e => let (n, d) := ratio m e; n % d = 0 && n / d % 2 = 1
  | _ => false

/-- Powers with an infinite or NaN operand: one to any power and any number to
    the power zero are one, else NaN stays NaN and infinities are limits. -/
def unboundedPower (x y : Float) : Float :=
  let one : Float := 1.0
  let negativeExponent := isNegative y
  if x.isNaN then (if y == 0.0 then one else x)
  else if y.isNaN then (if x == one then one else y)
  else if x.isInf then
    let odd := isOddWhole y
    if y == 0.0 then one
    else if negativeExponent then zero (odd && isNegative x)
    else infinity (odd && isNegative x)
  else if abs x == one then one
  else if negativeExponent == (abs x < one) then infinity false
  else zero false

/-- `x` to the power `y`. -/
def power (x y : Float) : Except ElementaryFault Float :=
  if isFinite x && isFinite y then
    let r := Float.pow x y
    if isFinite r then .ok r
    else if r.isNaN || x == 0.0 then .error .domain
    else .error .range
  else .ok (unboundedPower x y)

/-- `e` to the power `x`. -/
def exponential (x : Float) : Except ElementaryFault Float :=
  let r := Float.exp x
  if r.isInf && isFinite x then .error .range else .ok r

/-- The natural logarithm. -/
def logarithm (x : Float) : Except ElementaryFault Float :=
  if x.isNaN then .ok x
  else if 0.0 < x then .ok (if x.isInf then x else Float.log x)
  else .error .domain

/-- The logarithm in a base. -/
def logarithmIn (base x : Float) : Except ElementaryFault Float := do
  let num ← logarithm x
  let den ← logarithm base
  if den == 0.0 then .error .divisionByZero else .ok (num / den)

/-- The square root. -/
def squareRoot (x : Float) : Except ElementaryFault Float :=
  if x < 0.0 then .error .domain else .ok (Float.sqrt x)

/-- The remainder of `x / y` with the sign of `x`. -/
def remainder (x y : Float) : Except ElementaryFault Float :=
  match parts x, parts y with
  | .nan, _ => .ok x
  | _, .nan => .ok y
  | .infinite _, _ => .error .domain
  | .finite .., .infinite _ => .ok x
  | .finite _ _ _, .finite _ 0 _ => .error .domain
  | .finite negative m e, .finite _ n k =>
    let least := min e k
    let r := (m <<< (e - least).toNat) % (n <<< (k - least).toNat)
    let (num, den) := ratio r least
    .ok (nearest negative num den)

/-- The ratio of a circle's circumference to its diameter, as a double. -/
def circleRatio : Float := ofMagnitude false 0x400921FB54442D18

end Rulebook.Number

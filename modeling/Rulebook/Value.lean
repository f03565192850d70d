/-
  Values — what an expression computes with: null, booleans, numbers and texts.

  * `Value.typeName` names the kind of a value in messages;
  * `Value.truthy` is its reading as a condition;
  * `Value.toText` is its text form.
-/
import Rulebook.Number.Decimal

namespace Rulebook

/-- A value of the language. -/
inductive Value where
  | null
  | boolean (b : Bool)
  | number (x : Float)
  | text (s : String)
  deriving DecidableEq

namespace Value

/-- The kind of a value, as messages name it. -/
def typeName : Value → String
  | null => "null"
  | boolean _ => "boolean"
  | number _ => "number"
  | text _ => "text"

/-- A value read as a condition: null, zero and the empty text are false. NaN is
    not zero, so it is true. -/
def truthy : Value → Bool
  | null => false
  | boolean b => b
  | number x => x != 0.0
  | text s => !s.isEmpty

/-- The text form of a number: no exponent, no trailing `.0`, and no sign on zero. -/
def numberText (x : Float) : String :=
  if x == 0.0 then "0" else Number.plainText x

/-- The text form of a value. -/
def toText : Value → String
  | null => "null"
  | boolean b => if b then "true" else "false"
  | number x => numberText x
  | text s => s

/-- The value is null. -/
def isNull : Value → Bool
  | null => true
  | _ => false

end Value

end Rulebook

/-
  Functions on values of any kind.
-/
import Rulebook.Library.Arguments
import Rulebook.Value.Comparison

namespace Rulebook.Library

open Text

/-- The first argument that is not null. -/
def coalesce (args : List Value) : Value := (args.find? (!·.isNull)).getD .null

/-- Null, or a text of blanks. -/
def isEmpty : Value → Bool
  | .null => true
  | .text s => (trim s).isEmpty
  | _ => false

/-- The number that a value stands for, a boolean standing for one or zero. -/
def toNumber : Value → Answer
  | .boolean b => .ok (.number (if b then 1.0 else 0.0))
  | v => match v.toNumber with
    | .ok (some x) => .ok (.number x)
    | .ok none => .ok .null
    | .error b => .error (.breakdown b)

/-- The value that most functions on values take. -/
def valueParameter : Parameter := .needed "value" "any" "The value"

/-- The functions on values of any kind. -/
def logic {ω : Type} : List (Definition ω) := [
  define .logic "coalesce" "any" "Returns the first non-null argument"
    [.rest "values" "any" "Candidates"]
    ["coalesce(nickname, firstName)"] fun args => .ok (coalesce args),
  define .logic "isNull" "boolean" "Returns true if the value is null" [valueParameter] []
    fun args => .ok (.boolean (argument args 0).isNull),
  define .logic "isEmpty" "boolean" "Returns true if the value is null or blank text"
    [valueParameter] ["isEmpty(middleName)"]
    fun args => .ok (.boolean (isEmpty (argument args 0))),
  define .logic "toNumber" "number" "Parses a number from text, null when it is not numeric"
    [valueParameter] ["toNumber(\"42\") + 1"] fun args => toNumber (argument args 0),
  define .logic "toText" "text" "Converts any value to its text form" [valueParameter] []
    fun args => .ok (.text (argument args 0).toText),
  define .logic "iif" "any" "Returns one of two values depending on a condition"
    [.needed "condition" "boolean" "Condition to test",
      .needed "trueValue" "any" "Value when true",
      .optional "falseValue" "any" "Value when false"]
    ["iif(total > 100, \"large\", \"small\")"]
    fun args => .ok (argument args (if (argument args 0).truthy then 1 else 2))]

end Rulebook.Library

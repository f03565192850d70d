/-
  Arguments — how the functions of the library read what they are called with.

  * an argument that is left out reads as null;
  * `numberOf` and `wholeOf` refuse what is no number or no whole number;
  * `textOf` is the text form, where null reads as the empty text.
-/
import Rulebook.Definition
import Rulebook.Number.Elementary
import Rulebook.Number.Rounding

namespace Rulebook.Library

open Number

/-- What a function of the library gives. -/
abbrev Answer := Except Failure Value

/-- The argument at an index. -/
def argument (args : List Value) (i : Nat) : Value := args.getD i .null

/-- The number that an argument of a function is. -/
def numberOf (function : String) : Value → Except Failure Float
  | .number x => .ok x
  | v => .error (.ofCause (.mismatch (.notNumber function v.typeName)))

/-- The whole number that an argument of a function is. -/
def wholeOf (function : String) (v : Value) : Except Failure Int := do
  let x ← numberOf function v
  match trunc? x with
  | some n => if isWhole x then return n else .error (.ofCause (.mismatch (.notWhole function x)))
  | none => .error (.ofCause (.mismatch (.notWhole function x)))

/-- The text that an argument of a function is. -/
def textOf : Value → String
  | .null => ""
  | v => v.toText

/-- There is no integer for an infinity or NaN. -/
def noInteger (x : Float) : Failure :=
  .breakdown <|
    if x.isNaN then .stated .badValue "cannot convert float NaN to integer"
    else .stated .overflow "cannot convert float infinity to integer"

/-- A result of arithmetic, or the fault as a failure. -/
def elementary : Except ElementaryFault Float → Answer
  | .ok x => .ok (.number x)
  | .error f => .error (.breakdown (.stated .badValue f.message))

/-- A function of the library as a definition. -/
def define {ω : Type} (category : Category) (name returnType description : String)
    (parameters : List Parameter) (examples : List String) (compute : List Value → Answer) :
    Definition ω where
  name
  description
  category
  parameters := some parameters
  returnType
  examples
  run args host := ((compute args).map Data.ofValue, host)

end Rulebook.Library

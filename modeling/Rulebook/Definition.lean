/-
  Definitions — the functions that expressions can call, with what is known of
  them.

  A function takes values and gives data of the host, or fails. It may keep a
  state of its host, of type `ω`; where `ω` is `Unit`, functions depend on their
  arguments only. No function sees the variables of the caller.

  * `Definition.accepts` says which numbers of arguments a function takes, and
    `Definition.arity` says it in words.
-/
import Rulebook.Failure

namespace Rulebook

/-- What a function is about. -/
inductive Category where
  | text
  | math
  | date
  | logic
  | custom
  deriving DecidableEq, Repr

namespace Category

/-- The name of a category. -/
def name : Category → String
  | text => "string"
  | math => "math"
  | date => "date"
  | logic => "logic"
  | custom => "custom"

/-- Every category. -/
def all : List Category := [text, math, date, logic, custom]

/-- The category with a name. -/
def ofName? (s : String) : Option Category := all.find? fun c => c.name == s

end Category

/-- A parameter of a function. A variadic one takes any number of values. -/
structure Parameter where
  name : String
  type : String
  description : String
  required : Bool
  variadic : Bool
  deriving DecidableEq, Repr

namespace Parameter

/-- A parameter that must be given. -/
def needed (name type description : String) : Parameter := ⟨name, type, description, true, false⟩

/-- A parameter that may be left out. -/
def optional (name type description : String) : Parameter := ⟨name, type, description, false, false⟩

/-- A parameter that takes any number of values. -/
def rest (name type description : String) : Parameter := ⟨name, type, description, false, true⟩

end Parameter

/-- A function that expressions can call. Without parameters, nothing is known
    of the arguments that it takes. -/
structure Definition (ω : Type) where
  name : String
  description : String
  category : Category
  parameters : Option (List Parameter)
  returnType : String
  examples : List String
  run : List Value → ω → Except Failure Data × ω

namespace Definition

variable {ω : Type}

/-- The least number of arguments. -/
def least (d : Definition ω) : Nat :=
  match d.parameters with
  | none => 0
  | some ps => ps.countP fun p => p.required && !p.variadic

/-- The greatest number of arguments, if there is one. -/
def most? (d : Definition ω) : Option Nat :=
  match d.parameters with
  | none => none
  | some ps => if ps.any (·.variadic) then none else some ps.length

/-- The function takes this number of arguments. -/
def accepts (d : Definition ω) (count : Nat) : Bool :=
  d.least ≤ count && d.most?.all (count ≤ ·)

/-- The numbers of arguments that a function takes, in words. -/
def arity (d : Definition ω) : String :=
  match d.most? with
  | none => s!"at least {d.least}"
  | some most => if d.least = most then toString most else s!"{d.least} to {most}"

end Definition

end Rulebook

/-
  Limits — how deep the parser and the evaluator go, and how often a loop runs.

  * `Limits.ofSettings` checks settings given by name;
  * `Limits.ofMapping` reads the settings of a rule file, `Limits.ofEnvironment`
    those of the environment;
  * `LimitsFault` is what can be wrong with them.
-/
import Rulebook.Data.Written
import Rulebook.Number.Integer
import Rulebook.Text.Blank

namespace Rulebook

open Text Number

/-- The limits of parsing and evaluation. -/
structure Limits where
  /-- The most times that a loop runs its body. -/
  maxIterations : Nat
  /-- The deepest node that the evaluator descends to. -/
  maxDepth : Nat
  /-- The deepest nesting that the parser accepts. -/
  maxNesting : Nat
  deriving DecidableEq, Repr

/-- The three settings. -/
inductive Setting where
  | maxIterations
  | maxDepth
  | maxNesting
  deriving DecidableEq, Repr

namespace Setting

/-- The name of a setting. -/
def name : Setting → String
  | maxIterations => "max_iterations"
  | maxDepth => "max_depth"
  | maxNesting => "max_nesting"

/-- The environment variable of a setting. -/
def variable_ : Setting → String
  | maxIterations => "RULEFORGE_MAX_ITERATIONS"
  | maxDepth => "RULEFORGE_MAX_DEPTH"
  | maxNesting => "RULEFORGE_MAX_NESTING"

/-- Every setting, in the order in which they are checked. -/
def all : List Setting := [maxIterations, maxDepth, maxNesting]

/-- The value that a setting has when it is not given. -/
def standard : Setting → Nat
  | maxIterations => 1000
  | maxDepth => 256
  | maxNesting => 64

end Setting

/-- What is wrong with settings. -/
inductive LimitsFault where
  /-- The value is no positive integer. -/
  | notPositive (setting : Setting) (given : String)
  /-- The text of the environment variable is no integer. -/
  | notInteger (setting : Setting) (given : String)
  | unknown (names : List String)
  deriving DecidableEq

/-- What is said of a fault. -/
def LimitsFault.message : LimitsFault → String
  | notPositive s given => s!"{s.name} must be a positive integer, got {given}"
  | notInteger s given => s!"{s.variable_} must be an integer, got {quoted given}"
  | unknown names => "Unknown engine setting(s): " ++ String.intercalate ", " names

namespace Limits

/-- The limits that hold when none are given. -/
def standard : Limits := ⟨1000, 256, 64⟩

instance : Inhabited Limits := ⟨standard⟩

/-- The value of a setting, or its standard value, checked. -/
def checked (given : Setting → Option Data) (s : Setting) : Except LimitsFault Nat :=
  match given s with
  | none => .ok s.standard
  | some (.integer (.ofNat (n + 1))) => .ok (n + 1)
  | some d => .error (.notPositive s d.written)

/-- The limits with some settings given, checked in order. -/
def ofSettings (given : Setting → Option Data) : Except LimitsFault Limits := do
  return ⟨← checked given .maxIterations, ← checked given .maxDepth, ← checked given .maxNesting⟩

/-- The limits that the settings of a rule file give, each by its name. -/
def ofMapping (entries : List (Data × Data)) : Except LimitsFault Limits :=
  let known := Setting.all.map Setting.name
  let names := entries.filterMap (·.1.text?)
  let unknown := names.filter fun n => !known.contains n
  if unknown.isEmpty then ofSettings fun s => (Data.mapping entries).field? s.name
  else .error (.unknown ((unknown.mergeSort fun a b => a ≤ b).eraseReps))

/-- The setting that an environment gives, if any. -/
def environmentSetting (lookup : String → Option String) (s : Setting) :
    Except LimitsFault (Option Data) :=
  match lookup s.variable_ with
  | none => .ok none
  | some text =>
    if (trim text).isEmpty then .ok none
    else match integer? text with
      | some n => .ok (some (.integer n))
      | none => .error (.notInteger s text)

/-- The limits that an environment gives. -/
def ofEnvironment (lookup : String → Option String) : Except LimitsFault Limits := do
  let iterations ← environmentSetting lookup .maxIterations
  let depth ← environmentSetting lookup .maxDepth
  let nesting ← environmentSetting lookup .maxNesting
  ofSettings fun
    | .maxIterations => iterations
    | .maxDepth => depth
    | .maxNesting => nesting

end Limits

end Rulebook

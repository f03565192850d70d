/-
  Rules — named conditions with assignments.

  * `RuleEntry` is a rule as it is written down: expressions are texts;
  * `RuleEntry.compile` reads all its expressions, the condition first, and
    gives a `Rule`, or the first error;
  * `Priority` orders rules: a higher priority comes first.
-/
import Rulebook.Node.Parse
import Rulebook.Limits

namespace Rulebook

/-! ## Priorities -/

/-- The priority of a rule: a whole number, written as an integer or as a
    number. -/
inductive Priority where
  | integer (n : Int)
  | number (x : Float)
  deriving DecidableEq

namespace Priority

/-- The whole number that a priority is. -/
def rank : Priority → Int
  | integer n => n
  | number x => (Number.trunc? x).getD 0

/-- A priority as it is shown. -/
def text : Priority → String
  | integer n => toString n
  | number x => Number.canonicalText x

end Priority

/-! ## Entries -/

/-- A rule as it is written down. -/
structure RuleEntry where
  name : String
  /-- The condition. -/
  when : String
  /-- The variables to assign, each with the expression of its value. -/
  assignments : List (String × String)
  priority : Priority
  description : String
  tags : List String

/-! ## Rules -/

/-- An assignment of a rule. -/
structure Action where
  target : String
  source : String
  expression : Node

/-- A rule with its expressions read. -/
structure Rule extends RuleEntry where
  condition : Node
  actions : List Action

namespace Action

/-- Reads the expression of an assignment. -/
def compile (limits : Limits) (target source : String) : Except ExpressionError Action := do
  return ⟨target, source, ← parse .expression limits.maxNesting source⟩

end Action

/-- Reads the expressions of an entry. -/
def RuleEntry.compile (limits : Limits) (e : RuleEntry) : Except ExpressionError Rule := do
  let condition ← parse .expression limits.maxNesting e.when
  let actions ← e.assignments.mapM fun a => Action.compile limits a.1 a.2
  return { e with condition, actions }

namespace Rule

/-- The expressions of a rule, in the order in which they are evaluated. -/
def expressions (r : Rule) : List Node := r.condition :: r.actions.map (·.expression)

/-- The variables that a rule assigns. -/
def targets (r : Rule) : List String := r.actions.map (·.target)

/-- The variables that a rule reads. -/
def referencedVariables (r : Rule) : List String :=
  r.expressions.flatMap (·.referencedVariables)

/-- The functions that a rule calls. -/
def referencedFunctions (r : Rule) : List String :=
  r.expressions.flatMap (·.referencedFunctions)

end Rule

end Rulebook

/-
  Rule sets — rules in the order of their priorities, with the limits under
  which they are evaluated and the standard values of their variables.

  * `RuleSet.ofRules` puts rules in order: by descending priority, and as they
    were given where priorities are equal;
  * `RuleSet.context` is a context with the standard values, and others over
    them.
-/
import Rulebook.Rule
import Rulebook.Context

namespace Rulebook

/-- A set of rules, no two of one name. -/
structure RuleSet where
  rules : List Rule
  limits : Limits
  defaults : Bindings
  name : String

/-- Why rules make no rule set. -/
inductive RuleSetFault where
  /-- The standard value of a variable has no value in the language. -/
  | badDefault (fault : DataFault)
  | repeatedName (name : String)
  deriving DecidableEq

/-- What a fault says. -/
def RuleSetFault.message : RuleSetFault → String
  | badDefault f => f.message
  | repeatedName name => s!"Duplicate rule name '{name}'"

/-- The first name that repeats an earlier one, or one of `seen`. -/
def repeatedName? (seen : List String) : List String → Option String
  | [] => none
  | name :: rest => if seen.contains name then some name else repeatedName? (name :: seen) rest

/-- Rules by descending priority. -/
def byPriority (rules : List Rule) : List Rule :=
  rules.mergeSort fun a b => b.priority.rank ≤ a.priority.rank

/-- The values of data that are given by name. -/
def valuesOf (entries : List (String × Data)) : Except DataFault Bindings :=
  entries.mapM fun e => return (e.1, ← e.2.toValue)

namespace RuleSet

/-- The rule set of some rules. -/
def ofRules (rules : List Rule) (limits : Limits) (defaults : List (String × Data))
    (name : String) : Except RuleSetFault RuleSet := do
  let rules := byPriority rules
  let defaults ← (valuesOf defaults).mapError .badDefault
  match repeatedName? [] (rules.map (·.name)) with
  | some name => throw (.repeatedName name)
  | none => return ⟨rules, limits, defaults, name⟩

/-- The rule of a name. -/
def get? (s : RuleSet) (name : String) : Option Rule := s.rules.find? fun r => r.name == name

/-- The context in which the variables have their standard values, save those
    that are given. -/
def context {ω : Type} (s : RuleSet) (functions : Registry ω) (host : ω)
    (bindings : List (String × Data)) : Except DataFault (Context ω) := do
  let given ← valuesOf bindings
  return (Context.empty functions host).withBindings (s.defaults.setAll given)

end RuleSet

end Rulebook

/-
  Firing — deciding the conditions of rules, and doing what the rules that
  match say.

  * `Outcome` is what became of one rule;
  * `Rule.check` decides a condition, `Rule.fire` also assigns;
  * `RuleSet.evaluate` checks every rule, `RuleSet.matching` and
    `RuleSet.firstMatch?` tell which match;
  * `RuleSet.fire` fires every rule in order, or all up to the first that
    matches; later rules see what earlier ones assigned.

  An error of one rule is told in its outcome and ends that rule only; a
  breakdown ends everything.
-/
import Rulebook.RuleSet

namespace Rulebook

/-- What became of a rule. -/
structure Outcome where
  rule : Rule
  matched : Bool
  /-- The variables assigned, in order. -/
  assigned : Bindings
  error : Option ExpressionError

/-- A step of firing: only breakdowns end it. -/
abbrev Firing (ω α : Type) := ExceptT Breakdown (StateM (Store ω)) α

variable {ω : Type}

namespace Firing

/-- Evaluates an expression; its error is an answer. -/
def attempt (env : Environment ω) (x : Node) : Firing ω (Except ExpressionError Value) :=
  ExceptT.mk do
    match ← (x.evaluate env).run with
    | .ok v => return .ok (.ok v)
    | .error (.error e) => return .ok (.error e)
    | .error (.breakdown b) => return .error b

/-- Adds a notice to the journal. -/
def report (n : Notice) : Firing ω Unit :=
  modify fun s => { s with journal := s.journal ++ [n] }

/-- Binds a variable. -/
def assign (name : String) (v : Value) : Firing ω Unit :=
  modify fun s => { s with bindings := s.bindings.set name v }

end Firing

open Firing

/-! ## One rule -/

namespace Rule

/-- Decides the condition of a rule. -/
def check (env : Environment ω) (r : Rule) : Firing ω Outcome := do
  match ← attempt env r.condition with
  | .ok v => return ⟨r, v.truthy, [], none⟩
  | .error e =>
    report (.ruleFailed r.name e.text)
    return ⟨r, false, [], some e⟩

/-- Carries out assignments up to the first error; `assigned` were carried out
    before. -/
def carryOut (env : Environment ω) (r : Rule) : List Action → Bindings → Firing ω Outcome
  | [], assigned => do
    report (.ruleFired r.name (sortedNames assigned.names))
    return ⟨r, true, assigned, none⟩
  | a :: rest, assigned => do
    match ← attempt env a.expression with
    | .ok v =>
      assign a.target v
      carryOut env r rest (assigned.set a.target v)
    | .error e =>
      report (.actionFailed r.name a.target e.text)
      return ⟨r, true, assigned, some e⟩

/-- Decides the condition of a rule and, where it matches, carries out its
    assignments. -/
def fire (env : Environment ω) (r : Rule) : Firing ω Outcome := do
  let outcome ← r.check env
  if outcome.matched then carryOut env r r.actions [] else return outcome

end Rule

/-! ## Several rules -/

/-- Checks rules one after the other. -/
def checkAll (env : Environment ω) : List Rule → Firing ω (List Outcome)
  | [] => return []
  | r :: rest => do
    let outcome ← r.check env
    return outcome :: (← checkAll env rest)

/-- The first rule that matches; the rules after it are not looked at. -/
def firstMatching? (env : Environment ω) : List Rule → Firing ω (Option Rule)
  | [] => return none
  | r :: rest => do
    let outcome ← r.check env
    if outcome.matched then return some r else firstMatching? env rest

/-- Fires rules one after the other, where asked only up to the first that
    matches. -/
def fireAll (env : Environment ω) (stopOnFirst : Bool) : List Rule → Firing ω (List Outcome)
  | [] => return []
  | r :: rest => do
    let outcome ← r.fire env
    if outcome.matched && stopOnFirst then return [outcome]
    else return outcome :: (← fireAll env stopOnFirst rest)

/-! ## Rule sets -/

namespace RuleSet

/-- Runs a step in a context. -/
def runIn {α : Type} (s : RuleSet) (c : Context ω)
    (step : Environment ω → List Rule → Firing ω α) : Except Breakdown α × Context ω :=
  let (answer, store) := (step ⟨s.limits, c.functions⟩ s.rules).run c.store
  (answer, { c with store })

/-- Decides every condition. -/
def evaluate (s : RuleSet) (c : Context ω) : Except Breakdown (List Outcome) × Context ω :=
  s.runIn c checkAll

/-- The rules that match, in order. -/
def matching (s : RuleSet) (c : Context ω) : Except Breakdown (List Rule) × Context ω :=
  let (answer, c) := s.evaluate c
  (answer.map fun outcomes => (outcomes.filter (·.matched)).map (·.rule), c)

/-- The first rule that matches. -/
def firstMatch? (s : RuleSet) (c : Context ω) : Except Breakdown (Option Rule) × Context ω :=
  s.runIn c firstMatching?

/-- Fires the rules. -/
def fire (s : RuleSet) (stopOnFirst : Bool) (c : Context ω) :
    Except Breakdown (List Outcome) × Context ω :=
  s.runIn c fun env => fireAll env stopOnFirst

end RuleSet

end Rulebook

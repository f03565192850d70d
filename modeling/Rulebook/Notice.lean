/-
  Notices — what evaluation and firing report besides their result.

  A journal is a list of notices in the order in which they arose; what scripts
  log is part of it (`logged`).
-/
import Rulebook.Data.Written

namespace Rulebook

/-- How weighty a notice is. -/
inductive Level where
  | debug
  | info
  | warning
  deriving DecidableEq, Repr

/-- The name of a level. -/
def Level.name : Level → String
  | debug => "DEBUG"
  | info => "INFO"
  | warning => "WARNING"

/-- Something worth telling. -/
inductive Notice where
  /-- A script logged a text. -/
  | logged (text : String)
  /-- A loop reached the ceiling of its iterations. -/
  | loopStopped (position : Option Nat) (iterations : Nat)
  /-- A pattern to match could not be read. -/
  | badPattern (pattern : Value) (reason : String)
  | ruleFired (rule : String) (assigned : List String)
  | ruleFailed (rule message : String)
  | actionFailed (rule target message : String)
  | loaded (count : Nat) (path : String)
  deriving DecidableEq

namespace Notice

/-- The level of a notice. -/
def level : Notice → Level
  | logged _ | loaded .. => .info
  | badPattern .. | ruleFired .. => .debug
  | loopStopped .. | ruleFailed .. | actionFailed .. => .warning

/-- The part of the library that a notice comes from. -/
def origin : Notice → String
  | logged _ => "ruleforge.script"
  | loopStopped .. | badPattern .. => "ruleforge.expressions.evaluator"
  | ruleFired .. | ruleFailed .. | actionFailed .. => "ruleforge.rules.engine"
  | loaded .. => "ruleforge.rules.loader"

/-- What a notice says. -/
def text : Notice → String
  | logged t => t
  | loopStopped position n =>
    let place := (position.map toString).getD "None"
    s!"Loop at position {place} stopped after {n} iterations"
  | badPattern pattern reason => s!"Invalid MATCHES pattern {pattern.written}: {reason}"
  | ruleFired rule assigned => s!"Rule '{rule}' fired, assigned {writtenTexts assigned}"
  | ruleFailed rule message => s!"Rule '{rule}' failed: {message}"
  | actionFailed rule target message => s!"Rule '{rule}' action '{target}' failed: {message}"
  | loaded n path => s!"Loaded {n} rule(s) from {path}"

end Notice

/-- The notices of a run, in order. -/
abbrev Journal := List Notice

/-- The texts that scripts logged. -/
def Journal.logged (j : Journal) : List String :=
  j.filterMap fun | .logged t => some t | _ => none

/-- The warnings of a journal. -/
def Journal.warnings (j : Journal) : Journal := j.filter (·.level = .warning)

end Rulebook

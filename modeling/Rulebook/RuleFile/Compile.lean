/-
  Compiling rule files — from a document that has the layout to its rule set.

  * `RuleFile.entry` reads the entry of one rule;
  * `RuleFile.compileEntries` reads the expressions of all entries, and goes on
    after an entry with a problem, so that all issues are told;
  * `RuleFile.ofDocument` does all that a document goes through: its layout is
    checked, then its settings, then its rules.
-/
import Rulebook.RuleFile.Layout
import Rulebook.RuleFile.Path
import Rulebook.RuleSet

namespace Rulebook

/-- Why a rule file makes no rule set. -/
inductive LoadFault where
  /-- The problems found, at least one. -/
  | issues (all : List Issue)
  /-- Problems of the layout that cannot be told. -/
  | layout (fault : LayoutFault)
  | limits (fault : LimitsFault)
  | data (fault : DataFault)
  deriving DecidableEq

namespace RuleFile

/-! ## Entries -/

/-- A field of a mapping that is read as a text; empty when it is not there. -/
def textField (name : String) (d : Data) : String :=
  ((d.field? name).bind (·.text?)).getD ""

/-- The items of a list. -/
def itemsOf : Option Data → List Data
  | some (.list items) => items
  | _ => []

/-- The entries of a mapping, by the texts of their keys. -/
def entriesOf : Option Data → List (String × Data)
  | some (.mapping entries) => entries.map fun e => (e.1.keyText, e.2)
  | _ => []

/-- The priority of a rule; zero when it is not given. -/
def priorityOf : Option Data → Priority
  | some (.integer n) => .integer n
  | some (.number x) => .number x
  | _ => .integer 0

/-- A value to assign as an expression: a text is one, and any other scalar
    stands for itself. -/
def sourceOf : Data → Except DataFault String
  | .text s => .ok s
  | d => return literalText (← d.toValue)

/-- The entry of a rule as it stands in a document. -/
def entry (d : Data) : Except DataFault RuleEntry := do
  let assignments ← (entriesOf (d.field? "set")).mapM fun e => return (e.1, ← sourceOf e.2)
  return {
    name := textField "name" d
    when := textField "when" d
    assignments
    priority := priorityOf (d.field? "priority")
    description := textField "description" d
    tags := (itemsOf (d.field? "tags")).filterMap (·.text?) }

/-! ## Rules -/

/-- What compiling entries found. -/
structure Compiled where
  rules : List Rule
  issues : List Issue

/-- Compiles an entry: the rule, unless an expression cannot be read, and the
    messages of what is wrong. -/
def compileEntry (limits : Limits) (known : String → Bool) (e : RuleEntry) :
    Option Rule × List String :=
  match e.compile limits with
  | .error error => (none, [s!"Rule '{e.name}': {error.text}"])
  | .ok r =>
    let unknown := (sortedNames r.referencedFunctions).filter fun f => !known f
    (some r, unknown.map fun f => s!"Rule '{e.name}' calls unknown function '{f}'")

/-- Compiles entries, the first of which has the position `index`; names in
    `seen` are taken. -/
def compileEntries (file : String) (limits : Limits) (known : String → Bool) :
    List String → Nat → List Data → Except DataFault Compiled
  | _, _, [] => .ok ⟨[], []⟩
  | seen, index, d :: rest => do
    let name := textField "name" d
    let issue (message : String) : Issue := ⟨file, message, s!"rules[{index}]"⟩
    if seen.contains name then
      let others ← compileEntries file limits known seen (index + 1) rest
      return { others with issues := issue s!"Duplicate rule name '{name}'" :: others.issues }
    else
      let (rule, messages) := compileEntry limits known (← entry d)
      let others ← compileEntries file limits known (name :: seen) (index + 1) rest
      return ⟨rule.toList ++ others.rules, messages.map issue ++ others.issues⟩

/-! ## Documents -/

/-- The limits that a document sets. -/
def limitsOf (d : Data) : Except LimitsFault Limits :=
  match d.field? "engine" with
  | some (.mapping entries) => Limits.ofMapping entries
  | _ => Limits.ofMapping []

/-- The rule set of a document; `known` are the functions that its rules may
    call. -/
def ofDocument (file : String) (known : String → Bool) (d : Data) :
    Except LoadFault RuleSet := do
  let d := withoutDates d
  match layoutIssues file d with
  | .ok [] => pure ()
  | .ok issues => throw (.issues issues)
  | .error f => throw (.layout f)
  let limits ← (limitsOf d).mapError .limits
  let compiled ← (compileEntries file limits known [] 0 (itemsOf (d.field? "rules"))).mapError .data
  if !compiled.issues.isEmpty then throw (.issues compiled.issues)
  let name := ((d.field? "name").bind (·.text?)).getD (stem file)
  match RuleSet.ofRules compiled.rules limits (entriesOf (d.field? "variables")) name with
  | .ok s => return s
  | .error (.badDefault f) => throw (.data f)
  | .error f => throw (.issues [⟨file, f.message, ""⟩])

end RuleFile

end Rulebook

/-
  Layout — what the document of a rule file looks like.

  * `RuleFile.layout` is its shape;
  * `RuleFile.layoutIssues` are the issues of a document that does not have it, unless
    a `LayoutFault` keeps them from being told;
  * `RuleFile.withoutDates` writes the dates of a document as texts where values
    and expressions are asked for.
-/
import Rulebook.Shape
import Rulebook.RuleFile.Issue
import Rulebook.Node.Render
import Rulebook.Limits

namespace Rulebook

/-- Why the issues of a document cannot be told. -/
inductive LayoutFault where
  /-- Their places cannot be put in order. -/
  | order (fault : OrderFault)
  /-- One of them shows an integer of too many digits. -/
  | tooManyDigits
  deriving DecidableEq

/-- What is said of a fault. -/
def LayoutFault.message : LayoutFault → String
  | order f => f.message
  | tooManyDigits => s!"Exceeds the limit ({Number.mostDigits} digits) for integer string "
    ++ "conversion; use sys.set_int_max_str_digits() to increase the limit"

namespace RuleFile

/-! ## The shape -/

/-- The shape of the settings: positive whole numbers. -/
def settingsShape : Shape :=
  .record [] (Setting.all.map fun s => (s.name, .whole (some 1)))

/-- The shape of a rule. -/
def ruleShape : Shape :=
  .record ["name", "when"] [
    ("name", .name .label),
    ("when", .someText),
    ("description", .text),
    ("priority", .whole none),
    ("tags", .list .text),
    ("set", .mapping (some .variable_) .scalar)]

/-- The shape of a rule file. -/
def layout : Shape :=
  .record ["rules"] [
    ("name", .text),
    ("description", .text),
    ("engine", settingsShape),
    ("variables", .mapping none .scalar),
    ("rules", .list ruleShape)]

/-- The issues of a document that does not have the shape, by path. -/
def layoutIssues (file : String) (d : Data) : Except LayoutFault (List Issue) := do
  if !(layout.misfits d).all (·.misfit.isWritable) then throw .tooManyDigits
  let misfits ← (layout.misfitsByPath d).mapError .order
  if !misfits.all (·.path.all Data.isWritable) then throw .tooManyDigits
  return misfits.map fun l => ⟨file, l.misfit.message, pathText l.path⟩

/-! ## Dates -/

/-- The standard text of a date or moment. -/
def dateText? : Data → Option String
  | .date d => some d.iso
  | .moment m => some m.iso
  | _ => none

/-- A date as a text. -/
def dateAsText (d : Data) : Data := ((dateText? d).map .text).getD d

/-- A date as an expression for a text. -/
def dateAsSource (d : Data) : Data := ((dateText? d).map fun s => .text (quotedText s)).getD d

/-- Changes the values of a mapping. -/
def mapValues (f : Data → Data) : Data → Data
  | .mapping entries => .mapping (entries.map fun e => (e.1, f e.2))
  | d => d

/-- Changes the items of a list. -/
def mapItems (f : Data → Data) : Data → Data
  | .list items => .list (items.map f)
  | d => d

/-- Changes the value of a key of a mapping. -/
def mapField (name : String) (f : Data → Data) : Data → Data
  | .mapping entries =>
    .mapping (entries.map fun e => if e.1.text? = some name then (e.1, f e.2) else e)
  | d => d

/-- The document with its dates as texts: those of variables as they are, those
    that rules assign as expressions. -/
def withoutDates (d : Data) : Data :=
  let bindings := mapField "variables" (mapValues dateAsText)
  let assignments := mapField "rules" (mapItems (mapField "set" (mapValues dateAsSource)))
  assignments (bindings d)

end RuleFile

end Rulebook

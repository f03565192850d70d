/-
  Contexts — the variables and functions of a caller, with what evaluation has
  reported so far.

  * `Context.bind` gives a variable the value of data of the host;
  * `Context.evaluate` evaluates a tree in a context, `Context.run` a text; both
    give the context reached, also when they fail.
-/
import Rulebook.Evaluation
import Rulebook.Node.Parse
import Rulebook.Library

namespace Rulebook

/-- What a caller evaluates with. -/
structure Context (ω : Type) where
  functions : Registry ω
  store : Store ω

namespace Context

variable {ω : Type}

/-- A context without variables. -/
def empty (functions : Registry ω) (host : ω) : Context ω := ⟨functions, ⟨[], [], host⟩⟩

/-- The variables of a context. -/
def bindings (c : Context ω) : Bindings := c.store.bindings

/-- What has been reported. -/
def journal (c : Context ω) : Journal := c.store.journal

/-- A context with other variables. -/
def withBindings (c : Context ω) (b : Bindings) : Context ω :=
  { c with store := { c.store with bindings := b } }

/-- Gives a variable the value of data. -/
def bind (c : Context ω) (name : String) (d : Data) : Except DataFault (Context ω) := do
  return c.withBindings (c.bindings.set name (← d.toValue))

/-- Gives several variables their values, one after the other; the context is the
    one reached before the first fault. -/
def bindAll (c : Context ω) : List (String × Data) → Option DataFault × Context ω
  | [] => (none, c)
  | (name, d) :: rest => match c.bind name d with
    | .ok c => c.bindAll rest
    | .error f => (some f, c)

/-- The value of a variable. -/
def value (c : Context ω) (name : String) : Except Failure Value :=
  match c.bindings.get? name with
  | some v => .ok v
  | none => .error (.ofCause (.undefinedVariable name))

/-- Evaluates a tree. -/
def evaluate (c : Context ω) (limits : Limits) (x : Node) : Except Failure Value × Context ω :=
  let (answer, store) := (x.evaluate ⟨limits, c.functions⟩).run c.store
  (answer, { c with store })

/-- Parses and evaluates a text. -/
def run (c : Context ω) (limits : Limits) (mode : Mode) (source : String) :
    Except Failure Value × Context ω :=
  match parse mode limits.maxNesting source with
  | .ok x => c.evaluate limits x
  | .error e => (.error (.error e), c)

end Context

end Rulebook

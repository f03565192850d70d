/-
  Filters — clauses that records are matched against.

  * `Filter.compile` reads a clause;
  * `Filter.accepts` matches one record, `Filter.select` keeps the records that
    match, in their order.

  Only the fields that the clause reads are bound, and of these only those with
  a value in the language, so reading any other is reading a missing one. A
  filter that is not strict takes an error of the clause as no match.
-/
import Rulebook.Context

namespace Rulebook

/-- A clause to match records against. -/
structure Filter where
  source : String
  clause : Node
  limits : Limits
  /-- An error of the clause is an error of the match. -/
  strict : Bool

/-- The fields of a record. -/
abbrev Record := List (String × Data)

namespace Filter

variable {ω : Type}

/-- Reads a clause. -/
def compile (source : String) (limits : Limits) (strict : Bool) :
    Except ExpressionError Filter := do
  return ⟨source, ← parse .expression limits.maxNesting source, limits, strict⟩

/-- The fields that the clause reads, in order. -/
def fields (f : Filter) : List String := sortedNames f.clause.referencedVariables

/-- The binding of a field, where it has one. -/
def bindField (record : Record) (b : Bindings) (name : String) : Except Breakdown Bindings :=
  match record.lookup name with
  | none => .ok b
  | some d => match d.toValue with
    | .ok v => .ok (b.set name v)
    | .error (.unsupported _) => .ok b
    | .error .integerTooLarge => .error (.data .integerTooLarge)

/-- The bindings that the clause is evaluated with. -/
def bindings (f : Filter) (record : Record) : Except Breakdown Bindings :=
  f.fields.foldlM (bindField record) []

/-- Decides what an answer of the clause says of the record. -/
def verdict (f : Filter) : Except Failure Value → Except Failure Bool
  | .ok v => .ok v.truthy
  | .error (.error e) => if f.strict then .error (.error e) else .ok false
  | .error (.breakdown b) => .error (.breakdown b)

/-- The record matches; the state is that of the host's functions. -/
def accepts (f : Filter) (functions : Registry ω) (record : Record) :
    ExceptT Failure (StateM ω) Bool := fun host =>
  match f.bindings record with
  | .error b => (.error (.breakdown b), host)
  | .ok b =>
    let (answer, c) := ((Context.empty functions host).withBindings b).evaluate f.limits f.clause
    (f.verdict answer, c.store.host)

/-- The items whose records match, in order. -/
def select {α : Type} (f : Filter) (functions : Registry ω) (record : α → Record) :
    List α → ExceptT Failure (StateM ω) (List α)
  | [] => return []
  | x :: xs => do
    let keep ← f.accepts functions (record x)
    let rest ← f.select functions record xs
    return if keep then x :: rest else rest

/-- The filter in messages. -/
def written (f : Filter) : String := writtenParts "Filter" [Text.quoted f.source]

end Filter

end Rulebook

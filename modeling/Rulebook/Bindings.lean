/-
  Bindings — names bound to values, each name at most once, in the order in
  which they were first bound.

  * `get?` looks a name up, `set` binds it;
  * `get?_set` is the law of the two.
-/
import Rulebook.Value
import Rulebook.Keyed

namespace Rulebook

/-- A value for each of some names. -/
abbrev Bindings := List (String × Value)

namespace Bindings

/-- The value of a name. -/
def get? (b : Bindings) (name : String) : Option Value := b.lookup name

/-- The name is bound. -/
def has (b : Bindings) (name : String) : Bool := (b.get? name).isSome

/-- Binds a name; one that is bound already keeps its place. -/
def set (b : Bindings) (name : String) (v : Value) : Bindings := put b name v

/-- Binds several names, one after the other. -/
def setAll (b : Bindings) (entries : List (String × Value)) : Bindings := putAll b entries

/-- The names that are bound. -/
def names (b : Bindings) : List String := b.map (·.1)

/-- The bindings in the order of their names. -/
def sorted (b : Bindings) : Bindings := b.mergeSort fun a b => a.1 ≤ b.1

/-- A name just bound has the new value, and every other name the one it had. -/
theorem get?_set (b : Bindings) (name : String) (v : Value) (other : String) :
    (b.set name v).get? other = if other = name then some v else b.get? other := by
  simp [set, get?, lookup_put]

end Bindings

end Rulebook

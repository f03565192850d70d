/-
  Registries — the functions that can be called, each under its name, in the
  order in which the names were first registered.

  * `lookup?` finds a function, `register` adds or replaces one and `unregister`
    removes one; `lookup?_register` is the law of the first two;
  * `byCategory` groups the functions.
-/
import Rulebook.Definition

namespace Rulebook

/-- The functions that can be called. -/
abbrev Registry (ω : Type) := List (Definition ω)

namespace Registry

variable {ω : Type}

/-- The function with a name. -/
def lookup? (r : Registry ω) (name : String) : Option (Definition ω) :=
  r.find? fun d => d.name == name

/-- The name is registered. -/
def has (r : Registry ω) (name : String) : Bool := (r.lookup? name).isSome

/-- Adds a function, in the place of one with the same name if there is one. -/
def register : Registry ω → Definition ω → Registry ω
  | [], d => [d]
  | e :: rest, d => if e.name == d.name then d :: rest else e :: register rest d

/-- Adds several functions. -/
def registerAll (r : Registry ω) (ds : List (Definition ω)) : Registry ω := ds.foldl register r

/-- Removes the function with a name, if there is one. -/
def unregister (r : Registry ω) (name : String) : Registry ω := r.filter fun d => d.name != name

/-- The names, in order. -/
def names (r : Registry ω) : List String := (r.map (·.name)).mergeSort fun a b => a ≤ b

/-- The functions of a category. -/
def ofCategory (r : Registry ω) (c : Category) : List (Definition ω) :=
  r.filter fun d => d.category = c

/-- The functions by category, the categories in order of their first function. -/
def byCategory (r : Registry ω) : List (Category × List (Definition ω)) :=
  let categories := (r.map (·.category)).foldl (fun cs c => if c ∈ cs then cs else cs ++ [c]) []
  categories.map fun c => (c, r.ofCategory c)

/-- A name just registered has the new function, and every other name the one it had. -/
theorem lookup?_register (r : Registry ω) (d : Definition ω) (name : String) :
    (r.register d).lookup? name = if name = d.name then some d else r.lookup? name := by
  induction r with
  | nil =>
    by_cases h : name = d.name
    · simp [register, lookup?, h]
    · have hd : ¬ d.name = name := fun e => h e.symm
      simp [register, lookup?, h, hd]
  | cons e rest ih =>
    simp only [lookup?] at ih ⊢
    by_cases he : e.name = d.name
    · by_cases h : name = d.name
      · simp [register, he, h]
      · have hd : ¬ d.name = name := fun e => h e.symm
        simp [register, he, h, hd]
    · by_cases h : e.name = name
      · have hne : ¬ name = d.name := fun e' => he (h.trans e')
        simp [register, h, hne]
      · simp [register, he, h, ih]

end Registry

end Rulebook

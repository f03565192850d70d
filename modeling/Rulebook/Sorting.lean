/-
  Sorting — by an order in which some things cannot be compared.

  * `sortBy` sorts a list, equal things staying in order; it fails with the first
    comparison that does.

  A list that is in order, or in the opposite order, is sorted by comparing
  neighbours only; what comes after such a run finds its place by halving.
-/
namespace Rulebook

variable {α ε : Type}

/-- The place of `x` in a sorted list, between two places: after all that it does
    not come before. -/
def placeBetween (before : α → α → Except ε Bool) (x : α) (sorted : List α) (low high : Nat) :
    Except ε Nat :=
  if low < high then
    let middle := (low + high) / 2
    match sorted[middle]? with
    | some y => do
      if ← before x y then placeBetween before x sorted low middle
      else placeBetween before x sorted (middle + 1) high
    | none => .ok low
  else .ok low
termination_by high - low

/-- A sorted list with one more thing in its place. -/
def insertSorted (before : α → α → Except ε Bool) (sorted : List α) (x : α) :
    Except ε (List α) :=
  return sorted.insertIdx (min (← placeBetween before x sorted 0 sorted.length) sorted.length) x

/-- How many things after `x` come before their neighbours, if they are to, or else
    do not. -/
def runLength (before : α → α → Except ε Bool) (descending : Bool) (x : α) :
    List α → Except ε Nat
  | [] => .ok 0
  | y :: rest => do
    if (← before y x) = descending then return (← runLength before descending y rest) + 1
    else return 0

/-- The list sorted. -/
def sortBy (before : α → α → Except ε Bool) : List α → Except ε (List α)
  | x :: y :: rest => do
    let descending ← before y x
    let length := (← runLength before descending x (y :: rest)) + 1
    let run := (x :: y :: rest).take length
    ((x :: y :: rest).drop length).foldlM (insertSorted before)
      (if descending then run.reverse else run)
  | xs => .ok xs

end Rulebook

/-
  Similarity — how much two texts have in common: their longest common run, and
  then the same on either side of it.

  * `sharedLength` counts the characters in common;
  * `areSimilar` says whether they are most of both texts.
-/
namespace Rulebook.Text

/-- How many characters two texts have in common at their beginnings. -/
def commonLength : List Char → List Char → Nat
  | a :: as, b :: bs => if a = b then commonLength as bs + 1 else 0
  | _, _ => 0

/-- A run that two texts have in common. -/
structure CommonRun where
  length : Nat
  /-- Where it begins in the first text. -/
  left : Nat
  /-- Where it begins in the second text. -/
  right : Nat

/-- The longest run in common; of several, the one that begins first in the first
    text, and then in the second. -/
def longestRun (as bs : List Char) : CommonRun :=
  let starts := (List.range as.length).flatMap fun i => (List.range bs.length).map fun j => (i, j)
  starts.foldl (fun best (i, j) =>
    let n := commonLength (as.drop i) (bs.drop j)
    if best.length < n then ⟨n, i, j⟩ else best) ⟨0, 0, 0⟩

/-- How many characters two texts have in common, run by run. -/
def sharedFrom : Nat → List Char → List Char → Nat
  | 0, _, _ => 0
  | n + 1, as, bs =>
    let run := longestRun as bs
    if run.length = 0 then 0
    else sharedFrom n (as.take run.left) (bs.take run.right) + run.length
      + sharedFrom n (as.drop (run.left + run.length)) (bs.drop (run.right + run.length))

/-- How many characters two texts have in common. -/
def sharedLength (a b : String) : Nat := sharedFrom a.length a.toList b.toList

/-- Two texts have at least three fifths of their characters in common. -/
def areSimilar (a b : String) : Bool := 3 * (a.length + b.length) ≤ 10 * sharedLength a b

end Rulebook.Text

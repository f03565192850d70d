/-
  Ranges of code points — the form in which a character property is tabulated.

  * `inRanges table c`: the code point of `c` lies in one of the ranges;
  * `lastAtMost? starts c`: the last of ascending starts that `c` reaches.
-/

namespace Rulebook.Text

/-- Ascending ranges of code points, both ends included. -/
abbrev Ranges := Array (Nat × Nat)

/-- The code point of `c` lies in one of the ranges. -/
def inRanges (table : Ranges) (c : Char) : Bool :=
  table.any fun r => r.1 ≤ c.toNat && c.toNat ≤ r.2

/-- The last of ascending starts that is not beyond `c`. -/
def lastAtMost? (starts : Array Nat) (c : Char) : Option Nat :=
  starts.foldl (fun found s => if s ≤ c.toNat then some s else found) none

end Rulebook.Text

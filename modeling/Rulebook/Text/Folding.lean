/-
  Folding case — when two letters count as the same letter in different case.

  * `Folding` says how far letters are told apart;
  * `foldCode` is the letter, by code point, that stands for all of its cases;
    a few letters share an upper case with another letter but no lower case,
    and `relatives` lists those.
-/
import Rulebook.Text.LetterCase

namespace Rulebook.Text

/-- How letters of different case are compared. -/
inductive Folding where
  /-- They differ. -/
  | exact
  /-- The letters of ASCII are folded, others differ. -/
  | ascii
  /-- All letters are folded. -/
  | full
  deriving DecidableEq, Repr

/-- A code point mapped as a character, unless it is none. -/
def mapCode (f : Char → Char) (n : Nat) : Nat :=
  if n.isValidChar then (f (Char.ofNat n)).toNat else n

/-- The lower case of a code point. -/
def foldCode : Folding → Nat → Nat
  | .exact, n => n
  | .ascii, n => if 0x41 ≤ n ∧ n ≤ 0x5A then n + 0x20 else n
  | .full, n => mapCode simpleLower n

/-- The upper case of a code point, as one code point. -/
def upperCode (n : Nat) : Nat := mapCode (fun c => (upperChar c).headD c) n

/-- The lower-case letters that count as the same letter as another one. -/
def relativesTable : Array (Nat × List Nat) := #[
  (0x69, [0x131]), (0x73, [0x17F]), (0xB5, [0x3BC]), (0x131, [0x69]), (0x17F, [0x73]),
  (0x345, [0x3B9, 0x1FBE]), (0x390, [0x1FD3]), (0x3B0, [0x1FE3]), (0x3B2, [0x3D0]),
  (0x3B5, [0x3F5]), (0x3B8, [0x3D1]), (0x3B9, [0x345, 0x1FBE]), (0x3BA, [0x3F0]),
  (0x3BC, [0xB5]), (0x3C0, [0x3D6]), (0x3C1, [0x3F1]), (0x3C2, [0x3C3]), (0x3C3, [0x3C2]),
  (0x3C6, [0x3D5]), (0x3D0, [0x3B2]), (0x3D1, [0x3B8]), (0x3D5, [0x3C6]), (0x3D6, [0x3C0]),
  (0x3F0, [0x3BA]), (0x3F1, [0x3C1]), (0x3F5, [0x3B5]), (0x432, [0x1C80]), (0x434, [0x1C81]),
  (0x43E, [0x1C82]), (0x441, [0x1C83]), (0x442, [0x1C84, 0x1C85]), (0x44A, [0x1C86]),
  (0x463, [0x1C87]), (0x1C80, [0x432]), (0x1C81, [0x434]), (0x1C82, [0x43E]), (0x1C83, [0x441]),
  (0x1C84, [0x442, 0x1C85]), (0x1C85, [0x442, 0x1C84]), (0x1C86, [0x44A]), (0x1C87, [0x463]),
  (0x1C88, [0xA64B]), (0x1E61, [0x1E9B]), (0x1E9B, [0x1E61]), (0x1FBE, [0x345, 0x3B9]),
  (0x1FD3, [0x390]), (0x1FE3, [0x3B0]), (0xA64B, [0x1C88]), (0xFB05, [0xFB06]),
  (0xFB06, [0xFB05])]

/-- The lower-case letters that count as the same letter as `n` besides itself. -/
def relatives : Folding → Nat → List Nat
  | .full, n => ((relativesTable.find? fun e => e.1 == n).map (·.2)).getD []
  | _, _ => []

/-- `c`, already folded, is a case of the code point `n`. -/
def isCaseOf (folding : Folding) (n c : Nat) : Bool :=
  let lower := foldCode folding n
  c == lower || (relatives folding lower).contains c

end Rulebook.Text

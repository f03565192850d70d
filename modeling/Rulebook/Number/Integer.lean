/-
  Integers in text — an optional sign and digits of any script, in groups
  joined by single underscores, with blanks around the whole.

  * `digitGroups?` reads digits and underscores and gives the digits;
  * `integer?` reads an integer, of at most `mostDigits` digits.
-/
import Rulebook.Number.Numeral

namespace Rulebook.Number

open Rulebook.Text

/-- The digits of a run in which single underscores may stand between digits. -/
def digitGroups? : List Char → Option (List Char)
  | [] => none
  | [c] => if isDigit c then some [c] else none
  | c :: '_' :: rest => if isDigit c then (digitGroups? rest).map (c :: ·) else none
  | c :: rest => if isDigit c then (digitGroups? rest).map (c :: ·) else none

/-- The most digits of an integer in text. -/
def mostDigits : Nat := 4300

/-- The integer that a text spells. -/
def integer? (s : String) : Option Int := do
  let (negative, body) := takeSign (stripBy isNumeralBlank s.toList)
  let ds ← digitGroups? body
  if mostDigits < ds.length then none else some (signed negative (digitsValue ds))

end Rulebook.Number

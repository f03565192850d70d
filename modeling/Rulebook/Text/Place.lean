/-
  Places in a text — the line and column of an offset, and the line shown with
  a caret under the place.

  * `locate` counts lines and columns from one; an offset beyond either end
    counts as that end;
  * `illustrate` shows the line that holds the offset.
-/
import Rulebook.Text.Search

namespace Rulebook.Text

/-- A line and a column, both counted from one. -/
structure LineColumn where
  line : Nat
  column : Nat
  deriving DecidableEq, Repr

/-- The place after one more character. -/
def LineColumn.advance (p : LineColumn) (c : Char) : LineColumn :=
  if c = '\n' then ⟨p.line + 1, 1⟩ else ⟨p.line, p.column + 1⟩

/-- Where a text begins. -/
def LineColumn.first : LineColumn := ⟨1, 1⟩

/-- An offset brought within a text. -/
def clampOffset (length : Nat) (offset : Int) : Nat := min offset.toNat length

/-- The line and column of an offset. -/
def locate (source : String) (offset : Int) : LineColumn :=
  let before := source.toList.take (clampOffset source.length offset)
  let lineStart := (before.reverse.takeWhile (· ≠ '\n')).length
  ⟨before.count '\n' + 1, lineStart + 1⟩

/-- The line that holds an offset, with a caret under its place. -/
def illustrate (source : String) (offset : Int) : String :=
  let place := locate source offset
  let text := (splitOn '\n' source.toList).getD (place.line - 1) []
  String.ofList ("  ".toList ++ text ++ "\n  ".toList ++
    List.replicate (place.column - 1) ' ' ++ ['^'])

end Rulebook.Text

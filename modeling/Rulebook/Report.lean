/-
  Reports — an error with its stage, its kind and its place, and where the
  source text is at hand the line with a caret under the place.
-/
import Rulebook.Failure

namespace Rulebook

open Text

namespace ExpressionError

/-- The line and column of an error: its own, or those of its position in the
    source. -/
def place? (e : ExpressionError) (source : Option String) : Option LineColumn :=
  match e.line, e.column, source, e.position with
  | some l, some c, _, _ => some ⟨l, c⟩
  | _, _, some s, some p => some (locate s p)
  | _, _, _, _ => none

/-- The place of an error in words. -/
def placeText (e : ExpressionError) (source : Option String) : String :=
  match e.place? source, e.position with
  | some p, _ => s!" at line {p.line}, column {p.column}"
  | none, some p => s!" at position {p}"
  | none, none => ""

/-- The report of an error. -/
def report (e : ExpressionError) (source : Option String) : String :=
  let summary := s!"{e.cause.stage.label} error [{e.cause.kind.name}]" ++ e.placeText source
    ++ ": " ++ e.cause.message
  match source, e.position with
  | some s, some p => summary ++ "\n" ++ illustrate s p
  | _, _ => summary

end ExpressionError

end Rulebook

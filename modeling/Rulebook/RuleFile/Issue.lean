/-
  Issues — the problems found in a rule file, each with the place where it was
  found.
-/
namespace Rulebook

/-- A problem of a rule file. -/
structure Issue where
  file : String
  message : String
  /-- The place within the document; empty for the document as a whole. -/
  path : String
  deriving DecidableEq, Repr

namespace Issue

/-- An issue on one line. -/
def text (i : Issue) : String :=
  let place := if i.path.isEmpty then "" else " at " ++ i.path
  "[ERROR] " ++ i.file ++ place ++ ": " ++ i.message

/-- How many issues a summary tells. -/
def summaryLength : Nat := 3

/-- The first issues, and how many more there are. -/
def summary (issues : List Issue) : String :=
  let told := String.intercalate "; " ((issues.take summaryLength).map text)
  if issues.length ≤ summaryLength then told
  else told ++ " (and " ++ toString (issues.length - summaryLength) ++ " more)"

end Issue

end Rulebook

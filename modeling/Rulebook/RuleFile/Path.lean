/-
  Paths — the names of files.

  * `RuleFile.normalPath` writes a path in the shortest way: without empty parts
    and without `.`;
  * `RuleFile.stem` is the last part of a path without its ending.
-/
import Rulebook.Text.Search

namespace Rulebook.RuleFile

open Text

/-- The parts of a path that lead somewhere. -/
def pathParts (path : String) : List (List Char) :=
  (splitOn '/' path.toList).filter fun part => part ≠ [] && part ≠ ['.']

/-- What a path begins with: nothing, or one slash or two where it starts at the
    root. -/
def pathRoot (path : String) : String :=
  let slashes := (path.toList.takeWhile (· = '/')).length
  if slashes = 0 then "" else if slashes = 2 then "//" else "/"

/-- A path in its shortest form. -/
def normalPath (path : String) : String :=
  let whole := pathRoot path ++ String.intercalate "/" ((pathParts path).map String.ofList)
  if whole.isEmpty then "." else whole

/-- The last part of a path without its ending. -/
def stem (path : String) : String :=
  let name := (pathParts path).getLastD []
  let parts := splitOn '.' name
  let beforeDot := (List.intersperse ['.'] parts.dropLast).flatten
  if beforeDot.isEmpty || (parts.getLastD []).isEmpty then String.ofList name
  else String.ofList beforeDot

end Rulebook.RuleFile

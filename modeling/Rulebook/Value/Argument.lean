/-
  Arguments — values given as plain text: truth values, null and numbers are
  read as such, everything else is the text itself.
-/
import Rulebook.Value.Comparison
import Rulebook.Text.LetterCase

namespace Rulebook

open Text

/-- The value that a text given as an argument stands for. -/
def Value.ofArgument (raw : String) : Except Breakdown Value :=
  match lower (trim raw) with
  | "true" => .ok (.boolean true)
  | "false" => .ok (.boolean false)
  | "null" => .ok .null
  | _ => do
    match ← (Value.text raw).toNumber with
    | some x => return .number x
    | none => return .text raw

end Rulebook

/-
  Data — what a host hands over: the content of documents, records, variables
  and function results. Scalars have a value of the language; lists and
  mappings have none.

  A decimal number of the host stands as the double that it converts to, so a
  signalling NaN, which converts to none, is not represented.

  * `Data.typeName` names the kind of the data;
  * `Data.toValue` is the value that scalars become: integers the nearest
    double, dates and moments their standard text;
  * `Data.field?` looks a key up in a mapping.
-/
import Rulebook.Value
import Rulebook.Calendar.Moment

namespace Rulebook

open Calendar

/-- Data of a host. -/
inductive Data where
  | null
  | boolean (b : Bool)
  | integer (n : Int)
  | number (x : Float)
  | text (s : String)
  | date (d : Date)
  | moment (m : Moment)
  | list (items : List Data)
  | mapping (entries : List (Data × Data))

/-- Why data have no value in the language. -/
inductive DataFault where
  /-- An integer beyond the largest double. -/
  | integerTooLarge
  /-- A kind that the language does not have. -/
  | unsupported (kind : String)
  deriving DecidableEq

/-- What a fault says. -/
def DataFault.message : DataFault → String
  | integerTooLarge => "int too large to convert to float"
  | unsupported kind => s!"Unsupported value type: {kind}"

namespace Data

/-- A value as data. -/
def ofValue : Value → Data
  | .null => null
  | .boolean b => boolean b
  | .number x => number x
  | .text s => text s

/-- The kind of the data, as messages name it. -/
def typeName : Data → String
  | null => "null"
  | boolean _ => "boolean"
  | integer _ | number _ => "number"
  | text _ => "text"
  | date _ => "date"
  | moment _ => "datetime"
  | list _ => "list"
  | mapping _ => "dict"

/-- Data read as a condition; what is no scalar of the language is true. -/
def truthy : Data → Bool
  | null => false
  | boolean b => b
  | integer n => n != 0
  | number x => x != 0.0
  | text s => !s.isEmpty
  | _ => true

/-- The value that the data become. -/
def toValue : Data → Except DataFault Value
  | null => .ok .null
  | boolean b => .ok (.boolean b)
  | integer n => match Number.ofInt? n with
    | some x => .ok (.number x)
    | none => .error .integerTooLarge
  | number x => .ok (.number x)
  | text s => .ok (.text s)
  | date d => .ok (.text d.iso)
  | moment m => .ok (.text m.iso)
  | list _ => .error (.unsupported "list")
  | mapping _ => .error (.unsupported "dict")

/-- The text of a text. -/
def text? : Data → Option String
  | text s => some s
  | _ => none

/-- The entry of a mapping under a text key. -/
def field? (name : String) : Data → Option Data
  | mapping entries => (entries.find? fun e => e.1.text? == some name).map (·.2)
  | _ => none

end Data

end Rulebook

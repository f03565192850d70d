/-
  Shapes — what a document may look like.

  * `Shape` describes data: scalars, texts, whole numbers, lists, records with
    known fields, and mappings with free keys;
  * `Shape.misfits` lists where data do not fit a shape, each with the path to
    it, in the order in which the shape is gone through;
  * `Shape.misfitsByPath` lists them by path, if the paths can be compared; data
    fit when there are none.
-/
import Rulebook.Data.Key
import Rulebook.Sorting
import Rulebook.Text.Search

namespace Rulebook

open Text

/-! ## Kinds of data -/

/-- The kinds of data that a shape can ask for. -/
inductive Kind where
  | mapping
  | list
  | text
  | number
  | whole
  | boolean
  | null
  deriving DecidableEq, Repr

namespace Kind

/-- The name of a kind. -/
def name : Kind → String
  | mapping => "object"
  | list => "array"
  | text => "string"
  | number => "number"
  | whole => "integer"
  | boolean => "boolean"
  | null => "null"

/-- Data are of a kind. A number without a fraction is a whole number, and a
    truth value is no number. -/
def holds : Kind → Data → Bool
  | mapping, .mapping _ => true
  | list, .list _ => true
  | text, .text _ => true
  | number, .integer _ => true
  | number, .number _ => true
  | whole, .integer _ => true
  | whole, .number x => Number.isWhole x
  | boolean, .boolean _ => true
  | null, .null => true
  | _, _ => false

/-- The kinds of the values of the language. -/
def scalars : List Kind := [text, number, boolean, null]

end Kind

/-! ## Names -/

/-- The form that a name must have. -/
inductive NameForm where
  /-- A letter or `_`, then letters, digits, `_`, `.` and `-`. -/
  | label
  /-- A letter or `_`, then letters, digits and `_`. -/
  | variable_
  deriving DecidableEq, Repr

namespace NameForm

/-- The form as messages show it. -/
def pattern : NameForm → String
  | label => "^[A-Za-z_][A-Za-z0-9_.-]*$"
  | variable_ => "^[A-Za-z_][A-Za-z0-9_]*$"

/-- A character that a name may begin with. -/
def begins (c : Char) : Bool := c.isAlpha || c = '_'

/-- A character that a name may go on with. -/
def continues : NameForm → Char → Bool
  | label, c => c.isAlphanum || c = '_' || c = '.' || c = '-'
  | variable_, c => c.isAlphanum || c = '_'

/-- Characters without a line break at their end. -/
def withoutFinalBreak (cs : List Char) : List Char :=
  if cs.getLast? = some '\n' then cs.dropLast else cs

/-- A text has the form; a line break may follow the name. -/
def accepts (f : NameForm) (s : String) : Bool :=
  match s.toList with
  | [] => false
  | c :: cs => begins c && (withoutFinalBreak cs).all f.continues

end NameForm

/-! ## Paths -/

/-- A step of a path as it is shown. -/
def stepText : Data → String
  | .integer n => "[" ++ toString n ++ "]"
  | .boolean b => "[" ++ writtenBoolean b ++ "]"
  | d => d.keyText

/-- A path as it is shown: names after a slash, positions in brackets. -/
def pathText (path : DataPath) : String :=
  replaceAll (String.intercalate "/" (path.map stepText)) "/[" "["

/-! ## Shapes -/

/-- What data may look like. -/
inductive Shape where
  /-- A value of the language. -/
  | scalar
  | text
  /-- A text that is not empty. -/
  | someText
  /-- A name of some form. -/
  | name (form : NameForm)
  /-- A whole number, not below the least one, if there is one. -/
  | whole (least : Option Int)
  | list (items : Shape)
  /-- A mapping of known keys: those that must be there, and all with their
      shapes. -/
  | record (required : List String) (fields : List (String × Shape))
  /-- A mapping of any keys; those that are texts must have the form. -/
  | mapping (keys : Option NameForm) (values : Shape)

/-- What does not fit. -/
inductive Misfit where
  | wrongKind (found : Data) (expected : List Kind)
  | missing (name : String)
  | unexpected (keys : List Data)
  | badName (name : String) (form : NameForm)
  | emptyText
  | tooSmall (found : Data) (least : Int)

/-- What is said of a misfit. -/
def Misfit.message : Misfit → String
  | wrongKind d kinds =>
    d.written ++ " is not of type " ++ String.intercalate ", " (kinds.map fun k => quoted k.name)
  | missing name => quoted name ++ " is a required property"
  | unexpected keys =>
    let verb := if keys.length = 1 then "was" else "were"
    let shown := String.intercalate ", " (keys.map (·.written))
    "Additional properties are not allowed (" ++ shown ++ " " ++ verb ++ " unexpected)"
  | badName name form => quoted name ++ " does not match " ++ quoted form.pattern
  | emptyText => quoted "" ++ " should be non-empty"
  | tooSmall d least => d.written ++ " is less than the minimum of " ++ toString least

/-- What is said of a misfit can be written. -/
def Misfit.isWritable : Misfit → Bool
  | wrongKind d _ | tooSmall d _ => d.isWritable
  | unexpected keys => keys.all Data.isWritable
  | missing _ | badName .. | emptyText => true

/-- A misfit with the path to it. -/
structure Located where
  path : DataPath
  misfit : Misfit

namespace Located

/-- A misfit of the data themselves. -/
def here (m : Misfit) : Located := ⟨[], m⟩

/-- A misfit one step further down. -/
def under (step : Data) (l : Located) : Located := { l with path := step :: l.path }

end Located

open Located

/-- The misfit of data that are of none of the kinds. -/
def kindMisfits (kinds : List Kind) (d : Data) : List Located :=
  if kinds.any (·.holds d) then [] else [here (.wrongKind d kinds)]

/-- The misfit of a number below the least one. -/
def leastMisfits (least : Option Int) (d : Data) : List Located :=
  match least, d with
  | some n, .integer m => if m < n then [here (.tooSmall d n)] else []
  | some n, .number x => if x < Number.ofInt n then [here (.tooSmall d n)] else []
  | _, _ => []

/-- The misfit of a text without the form. -/
def nameMisfits (form : NameForm) : Data → List Located
  | .text s => if form.accepts s then [] else [here (.badName s form)]
  | _ => []

/-- The misfit of keys that are not among the known ones. -/
def unexpectedMisfits (known : List String) (entries : List (Data × Data)) : List Located :=
  let isKnown (key : Data) : Bool := match key with
    | .text s => known.contains s
    | _ => false
  match (entries.map (·.1)).filter fun key => !isKnown key with
  | [] => []
  | extra => [here (.unexpected (extra.mergeSort fun a b => a.keyText ≤ b.keyText))]

/-- The misfits of required keys that are not there. -/
def missingMisfits (required : List String) (d : Data) : List Located :=
  (required.filter fun name => (d.field? name).isNone).map fun name => here (.missing name)

mutual

/-- Where data do not fit a shape. -/
def Shape.misfits : Shape → Data → List Located
  | .scalar, d => kindMisfits Kind.scalars d
  | .text, d => kindMisfits [.text] d
  | .someText, d => match d with
    | .text s => if s.isEmpty then [here .emptyText] else []
    | d => kindMisfits [.text] d
  | .name form, d => kindMisfits [.text] d ++ nameMisfits form d
  | .whole least, d => kindMisfits [.whole] d ++ leastMisfits least d
  | .list items, d => match d with
    | .list ds => ds.zipIdx.flatMap fun e =>
      (items.misfits e.1).map (under (.integer e.2))
    | d => kindMisfits [.list] d
  | .record required fields, d => match d with
    | .mapping entries =>
      unexpectedMisfits (fields.map (·.1)) entries ++ missingMisfits required d
        ++ fieldMisfits fields d
    | d => kindMisfits [.mapping] d
  | .mapping keys values, d => match d with
    | .mapping entries =>
      (match keys with
        | some form => entries.flatMap fun e => nameMisfits form e.1
        | none => [])
      ++ entries.flatMap fun e => (values.misfits e.2).map (under e.1)
    | d => kindMisfits [.mapping] d

/-- Where the fields of a record do not fit their shapes. -/
def fieldMisfits : List (String × Shape) → Data → List Located
  | [], _ => []
  | (name, shape) :: rest, d =>
    (match d.field? name with
      | some x => (shape.misfits x).map (under (.text name))
      | none => [])
    ++ fieldMisfits rest d

end

/-- Where data do not fit a shape, by path; a fault where two paths cannot be
    compared. -/
def Shape.misfitsByPath (s : Shape) (d : Data) : Except OrderFault (List Located) :=
  sortBy (fun a b => pathBefore a.path b.path) (s.misfits d)

end Rulebook

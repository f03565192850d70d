/-
  Keys — the data that can stand before the values of a mapping.

  * `Data.sameKey` says when two keys are one: numbers go by their values, and
    truth values count as numbers;
  * `Data.keyBefore` says whether a key comes before another, if the two can be
    compared, and `pathBefore` the same of paths, which go step by step.
-/
import Rulebook.Data.Written

namespace Rulebook

/-! ## Faults -/

/-- Why two keys cannot be compared. -/
inductive OrderFault where
  /-- They are of these kinds. -/
  | kinds (left right : String)
  /-- One is a date and one a moment. -/
  | dateAndMoment
  /-- Only one of two moments has an offset. -/
  | offsets
  deriving DecidableEq, Repr

/-- What a fault says. -/
def OrderFault.message : OrderFault → String
  | kinds left right =>
    s!"'<' not supported between instances of '{left}' and '{right}'"
  | dateAndMoment => "can't compare datetime.datetime to datetime.date"
  | offsets => "can't compare offset-naive and offset-aware datetimes"

namespace Data

/-! ## Keys -/

/-- Data can be a key. -/
def isKey : Data → Bool
  | list _ | mapping _ => false
  | _ => true

/-- The kind of a key, as messages name it. -/
def keyKind : Data → String
  | null => "NoneType"
  | boolean _ => "bool"
  | integer _ => "int"
  | number _ => "float"
  | text _ => "str"
  | date _ => "datetime.date"
  | moment _ => "datetime.datetime"
  | list _ => "list"
  | mapping _ => "dict"

/-- A key as plain text. -/
def keyText : Data → String
  | text s => s
  | date d => d.iso
  | moment m => m.date.iso ++ " " ++ String.ofList (m.iso.toList.drop (m.date.iso.length + 1))
  | d => d.written

/-- The whole number that data are equal to. -/
def wholeOf? : Data → Option Int
  | integer n => some n
  | boolean b => some (if b then 1 else 0)
  | number x => if Number.isWhole x then Number.trunc? x else none
  | _ => none

/-- Two keys are one: numbers by their values, of which truth values have one. -/
def sameKey (a b : Data) : Bool :=
  match a.wholeOf?, b.wholeOf? with
  | some m, some n => m = n
  | none, none =>
    match a, b with
    | null, null => true
    | number x, number y => Number.same x y
    | text s, text t => s = t
    | date d, date e => d = e
    | moment d, moment e => d.compare? e = some .eq
    | _, _ => false
  | _, _ => false

/-! ## Order -/

/-- A whole number is less than a double. -/
def wholeBefore (n : Int) (x : Float) : Bool :=
  match Number.ceil? x with
  | some c => n < c
  | none => 0.0 < x

/-- A double is less than a whole number. -/
def beforeWhole (x : Float) (n : Int) : Bool :=
  match Number.floor? x with
  | some f => f < n
  | none => x < 0.0

/-- A key comes before another of its kind; numbers and truth values are of one
    kind, and NaN comes before nothing. -/
def keyBefore (a b : Data) : Except OrderFault Bool :=
  let fault : Except OrderFault Bool := .error (.kinds a.keyKind b.keyKind)
  match a, b with
  | text s, text t => .ok (s < t)
  | date d, date e => .ok (d.ordinal < e.ordinal)
  | moment m, moment n => match m.compare? n with
    | some o => .ok (o == .lt)
    | none => .error .offsets
  | date _, moment _ | moment _, date _ => .error .dateAndMoment
  | number x, number y => .ok (x < y)
  | number x, b => match b.wholeOf? with
    | some n => .ok (beforeWhole x n)
    | none => fault
  | a, number y => match a.wholeOf? with
    | some m => .ok (wholeBefore m y)
    | none => fault
  | a, b => match a.wholeOf?, b.wholeOf? with
    | some m, some n => .ok (m < n)
    | _, _ => fault

end Data

/-! ## Paths -/

/-- The way to a part of a document: a key or the position of an item for each
    step. -/
abbrev DataPath := List Data

/-- A path comes before another: at the first step where they differ, or because
    the other goes on from it. -/
def pathBefore : DataPath → DataPath → Except OrderFault Bool
  | _, [] => .ok false
  | [], _ :: _ => .ok true
  | a :: as, b :: bs => if a.sameKey b then pathBefore as bs else a.keyBefore b

end Rulebook

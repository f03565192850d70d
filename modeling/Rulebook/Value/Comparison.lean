/-
  Comparing values — equality, order, wildcards and containment.

  * `toNumber` is the number that a value stands for: a number itself, or text
    that reads as one;
  * `equals` compares numbers where both sides stand for one, and text forms
    otherwise; null equals only null, a boolean only the same boolean;
  * `compare` orders by number where both sides stand for one, and by text
    otherwise; null and booleans have no order;
  * `like` matches a pattern with `%` at either end, `contains` finds a text
    in another.
-/
import Rulebook.Failure
import Rulebook.Number.Numeral
import Rulebook.Calendar.Iso

namespace Rulebook

open Text Number

namespace Value

/-- The number that a value stands for, if any. -/
def toNumber : Value → Except Breakdown (Option Float)
  | number x => .ok (some x)
  | text s => match numericText s with
    | .number x => .ok (some x)
    | .other => .ok none
    | .unreadable => .error (.unreadableNumber s)
  | _ => .ok none

/-- Equality of values. -/
def equals (a b : Value) : Except Breakdown Bool :=
  match a, b with
  | null, _ => .ok b.isNull
  | _, null => .ok false
  | boolean x, boolean y => .ok (x == y)
  | boolean _, _ | _, boolean _ => .ok false
  | _, _ => do
    match ← a.toNumber, ← b.toNumber with
    | some x, some y => return x == y
    | _, _ => return a.toText == b.toText

/-- The order of two doubles; NaN is neither less nor greater. -/
def numberOrder (x y : Float) : Ordering :=
  if x < y then .lt else if y < x then .gt else .eq

/-- The order of two texts, by code points. -/
def textOrder (s t : String) : Ordering :=
  if s < t then .lt else if t < s then .gt else .eq

/-- A value that has a place in the order. -/
def isOrdered : Value → Bool
  | number _ | text _ => true
  | _ => false

/-- The order of two values. -/
def compare (a b : Value) : Except Failure Ordering :=
  if a.isOrdered && b.isOrdered then
    match a.toNumber, b.toNumber with
    | .ok (some x), .ok (some y) => .ok (numberOrder x y)
    | .error e, _ | _, .error e => .error (.breakdown e)
    | _, _ => .ok (textOrder a.toText b.toText)
  else .error (.ofCause (.mismatch (.order a.typeName b.typeName)))

/-- A text matches a pattern in which `%` at either end stands for anything. -/
def likeText (s pattern : List Char) : Bool :=
  match pattern with
  | '%' :: rest =>
    if rest.getLast? = some '%' then (findFrom rest.dropLast 0 s).isSome
    else rest.isSuffixOf s
  | _ =>
    if pattern.getLast? = some '%' then pattern.dropLast.isPrefixOf s
    else s == pattern

/-- The text form of a value matches that of a pattern; null matches nothing. -/
def like (a pattern : Value) : Bool :=
  !a.isNull && !pattern.isNull && likeText a.toText.toList pattern.toText.toList

/-- The text form of an item occurs in that of a container; null neither
    contains nor occurs. -/
def contains (container item : Value) : Bool :=
  !container.isNull && !item.isNull && occursIn item.toText container.toText

/-- The moment that a value stands for: a text in one of the ISO-8601 forms,
    blanks around it aside. -/
def moment? : Value → Option Calendar.Moment
  | text s => Calendar.Moment.ofIso? (trim s)
  | _ => none

end Value

/-- The moment that data stand for: a moment, the start of a date, or a text in
    one of the standard forms. -/
def Data.moment? : Data → Option Calendar.Moment
  | moment m => some m
  | date d => some d.midnight
  | text s => Value.moment? (.text s)
  | _ => none

end Rulebook

/-
  Operators — what each operator makes of its operands.

  * `UnaryOperator.apply` and `BinaryOperator.apply` give an operator's answer;
    `AND` and `OR` are not among them, since they do not always look at their
    right operand;
  * `matching` is the answer of `MATCHES`, with what it reports: a malformed
    pattern matches nothing.
-/
import Rulebook.Node
import Rulebook.Notice
import Rulebook.Pattern.Match
import Rulebook.Value.Comparison
import Rulebook.Number.Elementary

namespace Rulebook

open Number

/-! ## One operand -/

/-- The answer of an operator to one operand. -/
def UnaryOperator.apply : UnaryOperator → Value → Except Failure Value
  | not_, v => .ok (.boolean !v.truthy)
  | negate, .number x => .ok (.number (-x))
  | negate, v => .error (.ofCause (.mismatch (.negation v.typeName)))
  | other symbol, _ => .error (.ofCause (.unknownUnary symbol))

/-! ## Two operands -/

/-- Arithmetic on two numbers. -/
def arithmetic (op : BinaryOperator) (f : Float → Float → Except Failure Float) :
    Value → Value → Except Failure Value
  | .number x, .number y => return .number (← f x y)
  | a, b => .error (.ofCause (.mismatch (.arithmetic op.symbol a.typeName b.typeName)))

/-- A quotient. -/
def quotient (x y : Float) : Except Failure Float :=
  if y == 0.0 then .error (.ofCause .divisionByZero) else .ok (x / y)

/-- A power, with what the language says where there is none. -/
def raised (x y : Float) : Except Failure Float :=
  match power x y with
  | .ok z => .ok z
  | .error .range => .error (.ofCause (.powerTooLarge x y))
  | .error _ =>
    .error (.ofCause (if x == 0.0 then .zeroToNegativePower else .powerNotReal x y))

/-- An order tested. -/
def ordered (test : Ordering → Bool) (a b : Value) : Except Failure Value :=
  return .boolean (test (← a.compare b))

/-- The order of two dates tested. -/
def dateOrdered (op : BinaryOperator) (wanted : Ordering) (a b : Value) :
    Except Failure Value :=
  match a.moment?, b.moment? with
  | some m, some n => match m.compare? n with
    | some o => .ok (.boolean (o == wanted))
    | none => .error (.ofCause (.mismatch (.offsets op.symbol)))
  | _, _ => .error (.ofCause (.mismatch (.dates op.symbol a.typeName b.typeName)))

/-- Equality tested. -/
def equated (a b : Value) : Except Failure Bool := (a.equals b).mapError .breakdown

/-- A fault in a pattern that is more than a matter of form. -/
def PatternFault.breakdown : PatternFault → Breakdown
  | repetitionTooLarge => .repetitionTooLarge
  | codeTooLarge => .stated .overflow "Python int too large to convert to C int"
  | conflictingClasses => .stated .badValue "ASCII and UNICODE flags are incompatible"
  | malformed reason _ => .stated .badValue reason

/-- The text form of a value holds a match of the pattern that is the text form
    of another; null neither matches nor is matched. -/
def matching (v pattern : Value) : Except Failure Value × Journal :=
  if v.isNull || pattern.isNull then (.ok (.boolean false), [])
  else match foundIn v.toText pattern.toText with
    | .ok b => (.ok (.boolean b), [])
    | .error (.malformed reason position) =>
      (.ok (.boolean false),
        [.badPattern pattern (malformedText pattern.toText reason position)])
    | .error f => (.error (.breakdown f.breakdown), [])

/-- The answer of an operator to two operands. -/
def BinaryOperator.apply (op : BinaryOperator) (a b : Value) : Except Failure Value :=
  match op with
  | and_ => .ok (.boolean (a.truthy && b.truthy))
  | or_ => .ok (.boolean (a.truthy || b.truthy))
  | equal => return .boolean (← equated a b)
  | notEqual => return .boolean !(← equated a b)
  | less => ordered (· == .lt) a b
  | lessEqual => ordered (· != .gt) a b
  | greater => ordered (· == .gt) a b
  | greaterEqual => ordered (· != .lt) a b
  | like => .ok (.boolean (a.like b))
  | matches_ => (matching a b).1
  | contains => .ok (.boolean (a.contains b))
  | before => dateOrdered op .lt a b
  | after => dateOrdered op .gt a b
  | plus => arithmetic op (fun x y => .ok (x + y)) a b
  | minus => arithmetic op (fun x y => .ok (x - y)) a b
  | times => arithmetic op (fun x y => .ok (x * y)) a b
  | divide => arithmetic op quotient a b
  | power => arithmetic op raised a b
  | other symbol => .error (.ofCause (.unknownOperator symbol))

/-- What an operator reports besides its answer. -/
def BinaryOperator.reports (op : BinaryOperator) (a b : Value) : Journal :=
  if op = .matches_ then (matching a b).2 else []

end Rulebook

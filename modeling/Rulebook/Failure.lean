/-
  Failures — what can go wrong, as causes.

  * `Cause` lists the errors of the language by what caused them; its stage,
    kind and message follow from the cause;
  * `ExpressionError` is a cause with the place where it arose;
  * `Breakdown` lists the failures that are no errors of the language: no part
    of the language handles them, and they end whatever is being done;
  * `Failure` is either.
-/
import Rulebook.Data
import Rulebook.Text.Quoted
import Rulebook.Text.Place

namespace Rulebook

open Text

/-! ## Kinds and stages -/

/-- Where an error of the language arises. -/
inductive Stage where
  | lexing
  | parsing
  | evaluation
  /-- No stage in particular. -/
  | general
  deriving DecidableEq, Repr

/-- The short name of a stage. -/
def Stage.name : Stage → String
  | lexing => "lex"
  | parsing => "parse"
  | evaluation => "evaluate"
  | general => "expression"

/-- The name of a stage in reports. -/
def Stage.label : Stage → String
  | lexing => "Lexical"
  | parsing => "Syntax"
  | evaluation => "Runtime"
  | general => "Expression"

/-- The kinds of errors. -/
inductive ErrorKind where
  | unexpectedCharacter
  | unterminatedString
  | unexpectedToken
  | missingParen
  | trailingInput
  | malformedStatement
  | emptyExpression
  | undefinedVariable
  | undefinedFunction
  | typeMismatch
  | divisionByZero
  | argumentCountMismatch
  | functionFailed
  | numericOverflow
  | numericDomain
  | nestingTooDeep
  deriving DecidableEq, Repr

namespace ErrorKind

/-- The name of a kind. -/
def name : ErrorKind → String
  | unexpectedCharacter => "unexpected_character"
  | unterminatedString => "unterminated_string"
  | unexpectedToken => "unexpected_token"
  | missingParen => "missing_paren"
  | trailingInput => "trailing_input"
  | malformedStatement => "malformed_statement"
  | emptyExpression => "empty_expression"
  | undefinedVariable => "undefined_variable"
  | undefinedFunction => "undefined_function"
  | typeMismatch => "type_mismatch"
  | divisionByZero => "division_by_zero"
  | argumentCountMismatch => "argument_count_mismatch"
  | functionFailed => "function_failed"
  | numericOverflow => "numeric_overflow"
  | numericDomain => "numeric_domain"
  | nestingTooDeep => "nesting_too_deep"

/-- Every kind, in order. -/
def all : List ErrorKind :=
  [unexpectedCharacter, unterminatedString, unexpectedToken, missingParen, trailingInput,
    malformedStatement, emptyExpression, undefinedVariable, undefinedFunction, typeMismatch,
    divisionByZero, argumentCountMismatch, functionFailed, numericOverflow, numericDomain,
    nestingTooDeep]

/-- The kind with a name. -/
def ofName? (s : String) : Option ErrorKind := all.find? fun k => k.name == s

end ErrorKind

/-! ## Causes -/

/-- An operand or argument of the wrong type. -/
inductive Mismatch where
  | negation (operand : String)
  | arithmetic (operator left right : String)
  | order (left right : String)
  /-- The operands of `operator` are not both dates. -/
  | dates (operator left right : String)
  /-- Only one of two dates has an offset. -/
  | offsets (operator : String)
  | notNumber (function found : String)
  | notWhole (function : String) (x : Float)
  | notDates (function : String)
  /-- A mismatch that a host function states. -/
  | stated (message : String)
  deriving DecidableEq

/-- What a mismatch says. -/
def Mismatch.message : Mismatch → String
  | negation t => s!"Cannot negate {t} value"
  | arithmetic op l r => s!"Operator '{op}' requires numbers, got {l} and {r}"
  | order l r => s!"Cannot order {l} and {r}"
  | dates op l r => s!"{op} requires ISO-8601 dates, got {l} and {r}"
  | offsets op => s!"{op} cannot compare a timezone-aware date with a naive one"
  | notNumber f t => s!"{f}() expects a number, got {t}"
  | notWhole f x => s!"{f}() expects a whole number, got " ++ Value.numberText x
  | notDates f => s!"{f}() expects ISO-8601 dates"
  | stated m => m

/-- The words that a statement can miss. -/
inductive MissingWord where
  | then_
  | do_
  | end_
  deriving DecidableEq, Repr

/-- What is said of a missing word. -/
def MissingWord.message : MissingWord → String
  | then_ => "Expected THEN after IF condition"
  | do_ => "Expected DO after WHILE condition"
  | end_ => "Expected END to close BEGIN block"

/-- What caused an error. -/
inductive Cause where
  | unexpectedCharacter (c : Char)
  | unterminatedText (quote : Char)
  | empty
  | unexpectedToken (shown : String)
  | unexpectedEnd
  | missingParen
  | missingParenAfterArguments
  | missingWord (word : MissingWord)
  | trailingInput (shown : String)
  /-- The text nests deeper than the parser accepts. -/
  | nestedTooDeep (limit : Nat)
  | undefinedVariable (name : String)
  | undefinedFunction (name : String)
  | mismatch (m : Mismatch)
  | divisionByZero
  | zeroToNegativePower
  | argumentCount (name expected : String) (received : Nat)
  /-- A function failed with something that is no error of the language. -/
  | functionFailed (name reason : String)
  /-- A function returned data that have no value in the language. -/
  | unsupportedResult (name reason : String)
  | powerTooLarge (base exponent : Float)
  | powerNotReal (base exponent : Float)
  /-- The tree is deeper than the evaluator descends. -/
  | descentTooDeep (limit : Nat)
  | unknownUnary (symbol : String)
  | unknownOperator (symbol : String)
  /-- An error that the host states. -/
  | stated (stage : Stage) (kind : ErrorKind) (message : String)
  deriving DecidableEq

namespace Cause

/-- The stage at which a cause arises. -/
def stage : Cause → Stage
  | unexpectedCharacter _ | unterminatedText _ => .lexing
  | empty | unexpectedToken _ | unexpectedEnd | missingParen | missingParenAfterArguments
  | missingWord _ | trailingInput _ | nestedTooDeep _ => .parsing
  | stated s _ _ => s
  | _ => .evaluation

/-- The kind of error that a cause is. -/
def kind : Cause → ErrorKind
  | unexpectedCharacter _ => .unexpectedCharacter
  | unterminatedText _ => .unterminatedString
  | empty => .emptyExpression
  | unexpectedToken _ | unexpectedEnd => .unexpectedToken
  | missingParen | missingParenAfterArguments => .missingParen
  | missingWord _ => .malformedStatement
  | trailingInput _ => .trailingInput
  | nestedTooDeep _ | descentTooDeep _ => .nestingTooDeep
  | undefinedVariable _ => .undefinedVariable
  | undefinedFunction _ => .undefinedFunction
  | mismatch _ => .typeMismatch
  | divisionByZero | zeroToNegativePower => .divisionByZero
  | argumentCount .. => .argumentCountMismatch
  | functionFailed .. | unsupportedResult .. | unknownUnary _ | unknownOperator _ =>
    .functionFailed
  | powerTooLarge .. => .numericOverflow
  | powerNotReal .. => .numericDomain
  | stated _ k _ => k

/-- What is said of a power. -/
def powerText (base exponent : Float) : String :=
  Value.numberText base ++ " ^ " ++ Value.numberText exponent

/-- What a cause says. -/
def message : Cause → String
  | unexpectedCharacter c => s!"Unexpected character '{c}'"
  | unterminatedText _ => "Unterminated string literal"
  | empty => "Empty expression"
  | unexpectedToken shown | trailingInput shown => s!"Unexpected token '{shown}'"
  | unexpectedEnd => "Unexpected end of input"
  | missingParen => "Expected ')'"
  | missingParenAfterArguments => "Expected ')' after arguments"
  | missingWord w => w.message
  | nestedTooDeep n | descentTooDeep n => s!"Expression nested deeper than {n} levels"
  | undefinedVariable n => s!"Undefined variable '{n}'"
  | undefinedFunction n => s!"Unknown function: {n}"
  | mismatch m => m.message
  | divisionByZero => "Division by zero"
  | zeroToNegativePower => "Zero raised to a negative power"
  | argumentCount n expected received =>
    s!"Function '{n}' expects {expected} argument(s), got {received}"
  | functionFailed n reason => s!"Error calling {n}: {reason}"
  | unsupportedResult n reason => s!"Function {n} returned an unsupported value: {reason}"
  | powerTooLarge a b => "Result of " ++ powerText a b ++ " is too large"
  | powerNotReal a b => powerText a b ++ " is not a real number"
  | unknownUnary op => s!"Unknown unary operator: {op}"
  | unknownOperator op => s!"Unknown operator: {op}"
  | stated _ _ m => m

/-- The character that a lexical error points at. -/
def character? : Cause → Option Char
  | unexpectedCharacter c | unterminatedText c => some c
  | _ => none

end Cause

/-! ## Errors with their place -/

/-- An error of the language: its cause, and the place where it arose as far as
    that is known. -/
structure ExpressionError where
  cause : Cause
  position : Option Nat
  line : Option Nat
  column : Option Nat
  deriving DecidableEq

namespace ExpressionError

/-- An error whose place is not known. -/
def ofCause (cause : Cause) : ExpressionError := ⟨cause, none, none, none⟩

/-- An error at an offset with a line and a column. -/
def atPlace (cause : Cause) (position : Nat) (place : LineColumn) : ExpressionError :=
  ⟨cause, some position, some place.line, some place.column⟩

/-- An error of evaluation takes the position of the node being evaluated when
    it has none of its own. -/
def locatedAt (position : Option Nat) (e : ExpressionError) : ExpressionError :=
  if e.cause.stage = .evaluation ∧ e.position = none then { e with position := position } else e

/-- The message with what is known of the place. -/
def text (e : ExpressionError) : String :=
  match e.line, e.column, e.position with
  | some l, some c, _ => s!"{e.cause.message} at line {l}, column {c}"
  | _, _, some p => s!"{e.cause.message} at position {p}"
  | _, _, none => e.cause.message

end ExpressionError

/-! ## Failures outside the language -/

/-- The broad classes of breakdowns. -/
inductive BreakdownClass where
  | badValue
  | overflow
  | badType
  | missingKey
  | memory
  deriving DecidableEq, Repr

/-- A failure that is no error of the language. -/
inductive Breakdown where
  /-- Data that have no value in the language. -/
  | data (fault : DataFault)
  /-- A text that looks like a number and cannot be read as one. -/
  | unreadableNumber (text : String)
  /-- A pattern repeats beyond what a matcher can count. -/
  | repetitionTooLarge
  /-- A failure stated by a function or its host. -/
  | stated (kind : BreakdownClass) (message : String)
  deriving DecidableEq

namespace Breakdown

/-- The class of a breakdown. -/
def kind : Breakdown → BreakdownClass
  | data .integerTooLarge => .overflow
  | data (.unsupported _) => .badType
  | unreadableNumber _ => .badValue
  | repetitionTooLarge => .overflow
  | stated k _ => k

/-- What a breakdown says. -/
def message : Breakdown → String
  | data f => f.message
  | unreadableNumber s => "could not convert string to float: " ++ quoted s
  | repetitionTooLarge => "the repetition number is too large"
  | stated _ m => m

end Breakdown

/-- Either an error of the language or a breakdown. -/
inductive Failure where
  | error (e : ExpressionError)
  | breakdown (b : Breakdown)
  deriving DecidableEq

namespace Failure

/-- An error of the language at no known place. -/
def ofCause (cause : Cause) : Failure := error (.ofCause cause)

/-- What a failure says, without its place. -/
def message : Failure → String
  | error e => e.text
  | breakdown b => b.message

/-- The failure, placed at a position unless it has a place. -/
def locatedAt (position : Option Nat) : Failure → Failure
  | error e => error (e.locatedAt position)
  | breakdown b => breakdown b

end Failure

end Rulebook

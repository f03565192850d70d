/-
  Parsing — from tokens to trees.

  From loosest to tightest: the six tiers of left-associative operators, `^`
  (to the right), `NOT` and unary minus, then literals, variables, calls and
  groups. Statements stand above expressions:

      script     = statement (";" statement)* ";"?
      statement  = name "=" expression
                 | IF expression THEN statement (ELSE statement)?
                 | WHILE expression DO statement
                 | LOG expression
                 | BEGIN (script)? END
                 | expression

  * a `Frame` is what the parser can be inside of and what counts as nesting:
    a statement, a whole expression, the operand of a unary operator, or an
    exponent; `frame limit room f` reads one with `room` frames still allowed,
    so the room is what the recursion goes down on;
  * a `Reading` is what was read and what is left, which is shorter; the loops
    over operators, arguments and statements end by it;
  * `parseTokens` reads a whole script or expression from tokens, `parse` from
    text.
-/
import Rulebook.Node
import Rulebook.Token.Scan

namespace Rulebook

/-! ## Reading tokens -/

/-- What was read and the tokens that are left, fewer than `bound`. -/
structure Reading (α : Type) (bound : Nat) where
  value : α
  rest : List Token
  shorter : rest.length < bound

/-- A reading holds under a larger bound. -/
def Reading.widen {α : Type} {m n : Nat} (r : Reading α m) (h : m ≤ n) : Reading α n :=
  ⟨r.value, r.rest, Nat.lt_of_lt_of_le r.shorter h⟩

/-- The result of reading from tokens. -/
abbrev ReadingResult (α : Type) (bound : Nat) := Except ExpressionError (Reading α bound)

/-- A parser reads at least one token, or fails. -/
abbrev Parser (α : Type) := (ts : List Token) → ReadingResult α ts.length

/-- The token at which the parser stands; after the last token the end of the
    input. -/
def currentToken (ts : List Token) : Token := ts.headD .unplacedFinish

/-- The tokens are used up. -/
def atFinish (ts : List Token) : Bool := (currentToken ts).kind = .finish

/-- Fails at the current token. -/
def failAt {α : Type} {bound : Nat} (ts : List Token) (cause : Cause) : ReadingResult α bound :=
  .error ((currentToken ts).error cause)

/-- Reads one token of a kind, or fails with a cause. -/
def expect (kind : TokenKind) (cause : Cause) : Parser Unit
  | t :: rest => if t.kind = kind then .ok ⟨(), rest, Nat.lt_succ_self _⟩ else failAt (t :: rest) cause
  | [] => failAt [] cause

/-! ## Frames -/

/-- What counts as a level of nesting. -/
inductive Frame where
  | statement
  | expression
  /-- The operand of a unary operator. -/
  | operand
  /-- What stands after `^`. -/
  | exponent
  deriving DecidableEq, Repr

/-- Readers of the frames that may stand inside. -/
abbrev Inner := Frame → Parser Node

/-! ## Expressions -/

/-- The rest of a call's arguments: each a comma and an expression. -/
def moreArguments (inner : Inner) (ts : List Token) :
    ReadingResult (List Node) (ts.length + 1) :=
  match ts with
  | t :: rest =>
    if t.kind = .comma then do
      let argument ← inner .expression rest
      have := argument.shorter
      let more ← moreArguments inner argument.rest
      return ⟨argument.value :: more.value, more.rest, by
        have := more.shorter; simp only [List.length_cons]; omega⟩
    else .ok ⟨[], t :: rest, Nat.lt_succ_self _⟩
  | [] => .ok ⟨[], [], Nat.lt_succ_self _⟩
termination_by ts.length
decreasing_by simp only [List.length_cons]; omega

/-- A call's arguments and the parenthesis that closes them. -/
def callArguments (inner : Inner) : Parser (List Node) := fun ts =>
  if (currentToken ts).kind = .rightParen then do
    let close ← expect .rightParen .missingParenAfterArguments ts
    return ⟨[], close.rest, close.shorter⟩
  else do
    let first ← inner .expression ts
    let more ← moreArguments inner first.rest
    let close ← expect .rightParen .missingParenAfterArguments more.rest
    return ⟨first.value :: more.value, close.rest, by
      have := first.shorter; have := more.shorter; have := close.shorter; omega⟩

/-- A name: a call if a parenthesis follows, else a variable. -/
def nameOrCall (inner : Inner) (name : String) (position : Nat) (ts : List Token) :
    ReadingResult Node (ts.length + 1) :=
  match ts with
  | t :: rest =>
    if t.kind = .leftParen then do
      let arguments ← callArguments inner rest
      return ⟨.call name arguments.value position, arguments.rest, by
        have := arguments.shorter; simp only [List.length_cons]; omega⟩
    else .ok ⟨.reference name position, t :: rest, Nat.lt_succ_self _⟩
  | [] => .ok ⟨.reference name position, [], Nat.lt_succ_self _⟩

/-- A literal, a variable, a call or a group. -/
def primary (inner : Inner) : Parser Node
  | t :: rest =>
    let literal (v : Value) : ReadingResult Node (rest.length + 1) :=
      .ok ⟨.literal v t.position, rest, Nat.lt_succ_self _⟩
    match t.kind with
    | .number x => literal (.number x)
    | .text s => literal (.text s)
    | .keyword .true_ => literal (.boolean true)
    | .keyword .false_ => literal (.boolean false)
    | .keyword .null_ => literal .null
    | .name n => nameOrCall inner n t.position rest
    | .leftParen => do
      let group ← inner .expression rest
      let close ← expect .rightParen .missingParen group.rest
      return ⟨group.value, close.rest, by
        have := group.shorter; have := close.shorter; simp only [List.length_cons]; omega⟩
    | .finish => failAt (t :: rest) .unexpectedEnd
    | _ => failAt (t :: rest) (.unexpectedToken t.shown)
  | [] => failAt [] .unexpectedEnd

/-- The unary operator that a token is, where an operand is expected. -/
def TokenKind.unary? : TokenKind → Option UnaryOperator
  | .keyword .not_ => some .not_
  | .operator .minus => some .negate
  | _ => none

/-- `NOT` or a minus with its operand, or a primary expression. -/
def unaryOperation (inner : Inner) : Parser Node
  | t :: rest => match t.kind.unary? with
    | some op => do
      let operand ← inner .operand rest
      return ⟨.unary op operand.value t.position, operand.rest, by
        have := operand.shorter; simp only [List.length_cons]; omega⟩
    | none => primary inner (t :: rest)
  | [] => primary inner []

/-- A base and perhaps `^` with its exponent. -/
def powerOperation (inner : Inner) : Parser Node := fun ts => do
  let base ← unaryOperation inner ts
  match h : base.rest with
  | t :: rest =>
    if t.kind = .operator .power then do
      let exponent ← inner .exponent rest
      return ⟨.binary .power base.value exponent.value t.position, exponent.rest, by
        have short := base.shorter; have := exponent.shorter
        simp only [h, List.length_cons] at short; omega⟩
    else return base
  | [] => return base

/-- The operator of a tier that a token is. -/
def TokenKind.tierOperator? (tier : Tier) (k : TokenKind) : Option BinaryOperator :=
  k.binary?.filter fun op => op.tier? = some tier

/-- The rest of a chain of operators of one tier, folded to the left. -/
def chainFrom (tier : Tier) (operand : Parser Node) (left : Node) (ts : List Token) :
    ReadingResult Node (ts.length + 1) :=
  match ts with
  | t :: rest => match t.kind.tierOperator? tier with
    | some op => do
      let right ← operand rest
      have := right.shorter
      let chain ← chainFrom tier operand (.binary op left right.value t.position) right.rest
      return chain.widen (by simp only [List.length_cons]; omega)
    | none => .ok ⟨left, t :: rest, Nat.lt_succ_self _⟩
  | [] => .ok ⟨left, [], Nat.lt_succ_self _⟩
termination_by ts.length
decreasing_by simp only [List.length_cons]; omega

/-- Operands of one tier with the operators between them. -/
def chain (tier : Tier) (operand : Parser Node) : Parser Node := fun ts => do
  let first ← operand ts
  let whole ← chainFrom tier operand first.value first.rest
  return whole.widen first.shorter

/-- A whole expression: the tiers, one within the other. -/
def tiers (inner : Inner) : Parser Node :=
  chain .disjunction <| chain .conjunction <| chain .equality <| chain .relation <|
    chain .sum <| chain .product <| powerOperation inner

/-! ## Statements -/

/-- The rest of a list of statements: each a semicolon and a statement. A
    semicolon may also end the list, at the end of the input or, in a block,
    before `END`. -/
def moreStatements (inner : Inner) (inBlock : Bool) (ts : List Token) :
    ReadingResult (List Node) (ts.length + 1) :=
  match ts with
  | t :: rest =>
    if t.kind = .semicolon then
      if atFinish rest || (inBlock && (currentToken rest).kind = .keyword .end_) then
        .ok ⟨[], rest, by simp only [List.length_cons]; omega⟩
      else do
        let statement ← inner .statement rest
        have := statement.shorter
        let more ← moreStatements inner inBlock statement.rest
        return ⟨statement.value :: more.value, more.rest, by
          have := more.shorter; simp only [List.length_cons]; omega⟩
    else .ok ⟨[], t :: rest, Nat.lt_succ_self _⟩
  | [] => .ok ⟨[], [], Nat.lt_succ_self _⟩
termination_by ts.length
decreasing_by simp only [List.length_cons]; omega

/-- Statements with semicolons between them. -/
def statements (inner : Inner) (inBlock : Bool) : Parser (List Node) := fun ts => do
  let first ← inner .statement ts
  let more ← moreStatements inner inBlock first.rest
  return ⟨first.value :: more.value, more.rest, by
    have := first.shorter; have := more.shorter; omega⟩

/-- What follows `IF`. -/
def conditional (inner : Inner) (position : Nat) : Parser Node := fun ts => do
  let condition ← inner .expression ts
  let word ← expect (.keyword .then_) (.missingWord .then_) condition.rest
  let thenBranch ← inner .statement word.rest
  match h : thenBranch.rest with
  | t :: rest =>
    if t.kind = .keyword .else_ then do
      let elseBranch ← inner .statement rest
      return ⟨.choice condition.value thenBranch.value elseBranch.value position,
        elseBranch.rest, by
          have := condition.shorter; have := word.shorter; have short := thenBranch.shorter
          have := elseBranch.shorter; simp only [h, List.length_cons] at short; omega⟩
    else return ⟨.when condition.value thenBranch.value position, thenBranch.rest, by
      have := condition.shorter; have := word.shorter; have := thenBranch.shorter; omega⟩
  | [] => return ⟨.when condition.value thenBranch.value position, thenBranch.rest, by
      have := condition.shorter; have := word.shorter; have := thenBranch.shorter; omega⟩

/-- What follows `WHILE`. -/
def repetition (inner : Inner) (position : Nat) : Parser Node := fun ts => do
  let condition ← inner .expression ts
  let word ← expect (.keyword .do_) (.missingWord .do_) condition.rest
  let body ← inner .statement word.rest
  return ⟨.loop condition.value body.value position, body.rest, by
    have := condition.shorter; have := word.shorter; have := body.shorter; omega⟩

/-- What follows `BEGIN`. -/
def block (inner : Inner) (position : Nat) : Parser Node := fun ts =>
  if (currentToken ts).kind = .keyword .end_ then do
    let word ← expect (.keyword .end_) (.missingWord .end_) ts
    return ⟨.sequence [] position, word.rest, word.shorter⟩
  else do
    let inside ← statements inner true ts
    let word ← expect (.keyword .end_) (.missingWord .end_) inside.rest
    return ⟨.sequence inside.value position, word.rest, by
      have := inside.shorter; have := word.shorter; omega⟩

/-- A statement whose first token is the name `name` at `position`: an
    assignment if `=` follows, else an expression. -/
def assignmentOr (inner : Inner) (name : String) (position : Nat) (t : Token)
    (rest : List Token) : ReadingResult Node (rest.length + 1) :=
  match rest with
  | sign :: after =>
    if sign.kind = .operator .equal then do
      let value ← inner .expression after
      return ⟨.assignment name value.value position, value.rest, by
        have := value.shorter; simp only [List.length_cons]; omega⟩
    else inner .expression (t :: sign :: after)
  | [] => inner .expression [t]

/-- A statement. -/
def statementBody (inner : Inner) : Parser Node
  | t :: rest => match t.kind with
    | .keyword .if_ => (conditional inner t.position rest).map (·.widen (Nat.le_succ _))
    | .keyword .while_ => (repetition inner t.position rest).map (·.widen (Nat.le_succ _))
    | .keyword .log_ => do
      let expression ← inner .expression rest
      return ⟨.log expression.value t.position, expression.rest,
        Nat.lt_succ_of_lt expression.shorter⟩
    | .keyword .begin_ => (block inner t.position rest).map (·.widen (Nat.le_succ _))
    | .name n => assignmentOr inner n t.position t rest
    | _ => inner .expression (t :: rest)
  | [] => inner .expression []

/-- Reads a frame with `room` frames still allowed; `limit` is how many were
    allowed at the start. -/
def frame (limit : Nat) : Nat → Inner
  | 0, _ => fun ts => failAt ts (.nestedTooDeep limit)
  | room + 1, .statement => statementBody (frame limit room)
  | room + 1, .expression => tiers (frame limit room)
  | room + 1, .operand => unaryOperation (frame limit room)
  | room + 1, .exponent => powerOperation (frame limit room)

/-! ## Whole texts -/

/-- What a text is read as. -/
inductive Mode where
  /-- Statements. -/
  | script
  /-- A single expression, in which `=` always compares. -/
  | expression
  deriving DecidableEq, Repr

/-- Several statements become a sequence, one stands for itself. -/
def asScript : List Node → Node
  | [x] => x
  | [] => .sequence [] none
  | x :: xs => .sequence (x :: xs) x.position

/-- Reads what the mode asks for, without regard to what follows it. -/
def readMode (mode : Mode) (limit : Nat) : Parser Node := fun ts =>
  match mode with
  | .script => do
    let inside ← statements (frame limit limit) false ts
    return ⟨asScript inside.value, inside.rest, inside.shorter⟩
  | .expression => frame limit limit .expression ts

/-- The tree of a whole script or expression, nested at most `limit` frames. -/
def parseTokens (mode : Mode) (limit : Nat) (ts : List Token) : Except ExpressionError Node :=
  if atFinish ts then .error (Token.unplacedFinish.error .empty)
  else do
    let whole ← readMode mode limit ts
    if atFinish whole.rest then return whole.value
    else
      let t := currentToken whole.rest
      .error (t.error (.trailingInput t.shown))

/-- The tree of a text. -/
def parse (mode : Mode) (limit : Nat) (source : String) : Except ExpressionError Node := do
  parseTokens mode limit (← tokenize source)

end Rulebook

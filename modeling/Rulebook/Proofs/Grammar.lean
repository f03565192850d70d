/-
  The grammar of the language — which words derive which trees.

      Expression = OR-chain of AND-chains of =,!=-chains of relations of sums of products of powers
      Power      = Unary | Unary ^ exponent
      Unary      = Primary | (NOT | -) operand
      Primary    = literal | name | name ( arguments ) | ( expression )
      Statement  = name = expression | IF expression THEN statement [ELSE statement]
                 | WHILE expression DO statement | LOG expression
                 | BEGIN [statements] END | expression

  * A `Language` relates words (lists of tokens) to what they derive. Each level
    of the grammar is a language over the languages `inner` of the frames that
    may stand inside it: a statement, a whole expression, the operand of a unary
    operator, an exponent.
  * `Phrase n` gives the frames nested at most `n` deep, the frame itself
    counted. Two rules settle what the productions leave open: an expression
    that begins like an assignment is no statement (`startsAssignment`), and the
    branch before an `ELSE` is not open (`Node.isOpen`), so that the `ELSE`
    belongs to the nearest `IF` still without one.
  * `Derives mode n` relates whole texts, the end of the input included, to their
    trees.
-/
import Rulebook.Node.Parse

namespace Rulebook

/-- Which words derive what. -/
abbrev Language (α : Type) := List Token → α → Prop

/-! ## Kinds of tokens -/

/-- The value of a token that is a literal. -/
def TokenKind.literal? : TokenKind → Option Value
  | .number x => some (.number x)
  | .text s => some (.text s)
  | .keyword .true_ => some (.boolean true)
  | .keyword .false_ => some (.boolean false)
  | .keyword .null_ => some .null
  | _ => none

/-- The kind of a name. -/
def TokenKind.isName : TokenKind → Bool
  | .name _ => true
  | _ => false

/-- A word that begins with a name and `=`. -/
def startsAssignment : List Token → Bool
  | t :: sign :: _ => t.kind.isName && sign.kind = .operator .equal
  | _ => false

/-- A node to which a following `ELSE` would belong. -/
def Node.isOpen : Node → Bool
  | .when .. => true
  | .choice _ _ e _ => e.isOpen
  | .loop _ b _ => b.isOpen
  | _ => false
termination_by structural x => x

/-! ## Expressions -/

/-- One or more phrases with a token of a kind between each two. -/
inductive Separated (kind : TokenKind) (phrase : Language Node) : Language (List Node)
  | one {w x} : phrase w x → Separated kind phrase w [x]
  | more {w x t v xs} : phrase w x → t.kind = kind → Separated kind phrase v xs →
      Separated kind phrase (w ++ t :: v) (x :: xs)

section
variable (inner : Frame → Language Node)

/-- A literal, a variable, a call or a group. -/
inductive Primary : Language Node
  | literal {t v} : t.kind.literal? = some v → Primary [t] (.literal v t.position)
  | reference {t n} : t.kind = .name n → Primary [t] (.reference n t.position)
  | emptyCall {t n l r} : t.kind = .name n → l.kind = .leftParen → r.kind = .rightParen →
      Primary [t, l, r] (.call n [] t.position)
  | call {t n l r w xs} : t.kind = .name n → l.kind = .leftParen → r.kind = .rightParen →
      Separated .comma (inner .expression) w xs →
      Primary (t :: l :: (w ++ [r])) (.call n xs t.position)
  | group {l r w x} : l.kind = .leftParen → r.kind = .rightParen → inner .expression w x →
      Primary (l :: (w ++ [r])) x

/-- `NOT` or a minus with its operand, or a primary expression. -/
inductive Unary : Language Node
  | primary {w x} : Primary inner w x → Unary w x
  | operation {t op w x} : t.kind.unary? = some op → inner .operand w x →
      Unary (t :: w) (.unary op x t.position)

/-- A base and perhaps `^` with its exponent. -/
inductive Power : Language Node
  | base {w x} : Unary inner w x → Power w x
  | power {w x t v y} : Unary inner w x → t.kind = .operator .power → inner .exponent v y →
      Power (w ++ t :: v) (.binary .power x y t.position)

end

/-- Operands of one tier with the operators between them, grouped to the left. -/
inductive Chain (tier : Tier) (operand : Language Node) : Language Node
  | single {w x} : operand w x → Chain tier operand w x
  | step {w x t op v y} : Chain tier operand w x → t.kind.tierOperator? tier = some op →
      operand v y → Chain tier operand (w ++ t :: v) (.binary op x y t.position)

/-- A whole expression: the tiers, one within the other. -/
def Expression (inner : Frame → Language Node) : Language Node :=
  Chain .disjunction <| Chain .conjunction <| Chain .equality <| Chain .relation <|
    Chain .sum <| Chain .product <| Power inner

/-! ## Statements -/

/-- Statements with semicolons between them, and perhaps one after the last. -/
inductive Statements (statement : Language Node) : Language (List Node)
  | last {w x} : statement w x → Statements statement w [x]
  | lastEnded {w x t} : statement w x → t.kind = .semicolon → Statements statement (w ++ [t]) [x]
  | more {w x t v xs} : statement w x → t.kind = .semicolon → Statements statement v xs →
      Statements statement (w ++ t :: v) (x :: xs)

/-- A statement. -/
inductive Statement (inner : Frame → Language Node) : Language Node
  | when {i w c t v x} : i.kind = .keyword .if_ → inner .expression w c →
      t.kind = .keyword .then_ → inner .statement v x →
      Statement inner (i :: (w ++ t :: v)) (.when c x i.position)
  | choice {i w c t v x e u y} : i.kind = .keyword .if_ → inner .expression w c →
      t.kind = .keyword .then_ → inner .statement v x → x.isOpen = false →
      e.kind = .keyword .else_ → inner .statement u y →
      Statement inner (i :: (w ++ t :: (v ++ e :: u))) (.choice c x y i.position)
  | loop {l w c d v x} : l.kind = .keyword .while_ → inner .expression w c →
      d.kind = .keyword .do_ → inner .statement v x →
      Statement inner (l :: (w ++ d :: v)) (.loop c x l.position)
  | log {l w x} : l.kind = .keyword .log_ → inner .expression w x →
      Statement inner (l :: w) (.log x l.position)
  | emptyBlock {b e} : b.kind = .keyword .begin_ → e.kind = .keyword .end_ →
      Statement inner [b, e] (.sequence [] b.position)
  | block {b w xs e} : b.kind = .keyword .begin_ → Statements (inner .statement) w xs →
      e.kind = .keyword .end_ →
      Statement inner (b :: (w ++ [e])) (.sequence xs b.position)
  | assignment {t n s w x} : t.kind = .name n → s.kind = .operator .equal →
      inner .expression w x → Statement inner (t :: s :: w) (.assignment n x t.position)
  | expression {w x} : startsAssignment w = false → inner .expression w x → Statement inner w x

/-! ## Frames and whole texts -/

/-- The words of a frame, with at most `n` frames nested, itself included. -/
def Phrase : Nat → Frame → Language Node
  | 0, _ => fun _ _ => False
  | n + 1, .statement => Statement (Phrase n)
  | n + 1, .expression => Expression (Phrase n)
  | n + 1, .operand => Unary (Phrase n)
  | n + 1, .exponent => Power (Phrase n)

/-- Whole scripts and expressions up to the end of the input, with at most `n`
    frames nested. -/
inductive Derives (n : Nat) : Mode → Language Node
  | script {w xs e} : Statements (Phrase n .statement) w xs → e.kind = .finish →
      Derives n .script (w ++ [e]) (asScript xs)
  | expression {w x e} : Phrase n .expression w x → e.kind = .finish →
      Derives n .expression (w ++ [e]) x

end Rulebook

/-
  Nodes — the trees that expressions and scripts are read into.

  * `BinaryOperator` lists the operators between two operands, with the tier in
    which each stands; `Tier` orders the left-associative tiers from loosest to
    tightest;
  * `Node` is a tree, every node with the offset it was read from, if any;
  * `Node.bare` forgets the offsets: two trees are the same up to formatting
    when their bare trees are equal;
  * `Node.children` and `Node.walk` list a node's parts, `referencedVariables`
    and `referencedFunctions` the names a tree reads and calls, and
    `assignedNames` those it assigns.
-/
import Rulebook.Token

namespace Rulebook

/-! ## Operators -/

/-- The tiers of left-associative operators, from loosest to tightest. -/
inductive Tier where
  | disjunction
  | conjunction
  | equality
  | relation
  | sum
  | product
  deriving DecidableEq, Repr

/-- An operator between two operands; `other` is one that the evaluator does
    not know. -/
inductive BinaryOperator where
  | or_
  | and_
  | equal
  | notEqual
  | less
  | lessEqual
  | greater
  | greaterEqual
  | like
  | matches_
  | contains
  | before
  | after
  | plus
  | minus
  | times
  | divide
  | power
  | other (symbol : String)
  deriving DecidableEq

namespace BinaryOperator

/-- An operator as it is written. -/
def symbol : BinaryOperator → String
  | or_ => "OR"
  | and_ => "AND"
  | equal => "="
  | notEqual => "!="
  | less => "<"
  | lessEqual => "<="
  | greater => ">"
  | greaterEqual => ">="
  | like => "LIKE"
  | matches_ => "MATCHES"
  | contains => "CONTAINS"
  | before => "BEFORE"
  | after => "AFTER"
  | plus => "+"
  | minus => "-"
  | times => "*"
  | divide => "/"
  | power => "^"
  | other s => s

/-- The operators of the language. -/
def known : List BinaryOperator :=
  [or_, and_, equal, notEqual, less, lessEqual, greater, greaterEqual, like, matches_,
    contains, before, after, plus, minus, times, divide, power]

/-- The operator that a symbol stands for. -/
def ofSymbol (s : String) : BinaryOperator :=
  (known.find? fun op => op.symbol == s).getD (other s)

/-- The tier of an operator. Powers associate to the right and have none. -/
def tier? : BinaryOperator → Option Tier
  | or_ => some .disjunction
  | and_ => some .conjunction
  | equal | notEqual => some .equality
  | less | lessEqual | greater | greaterEqual => some .relation
  | like | matches_ | contains | before | after => some .relation
  | plus | minus => some .sum
  | times | divide => some .product
  | power | other _ => none

end BinaryOperator

/-- An operator before one operand; `other` is one that the evaluator does not
    know. -/
inductive UnaryOperator where
  | not_
  | negate
  | other (symbol : String)
  deriving DecidableEq

/-- An operator as it is written. -/
def UnaryOperator.symbol : UnaryOperator → String
  | not_ => "NOT"
  | negate => "-"
  | other s => s

/-- The operator that a symbol stands for. -/
def UnaryOperator.ofSymbol (s : String) : UnaryOperator :=
  if s = "NOT" then not_ else if s = "-" then negate else other s

/-- The operator that stands between two operands when a token does. -/
def TokenKind.binary? : TokenKind → Option BinaryOperator
  | .operator .equal => some .equal
  | .operator .notEqual => some .notEqual
  | .operator .less => some .less
  | .operator .lessEqual => some .lessEqual
  | .operator .greater => some .greater
  | .operator .greaterEqual => some .greaterEqual
  | .operator .plus => some .plus
  | .operator .minus => some .minus
  | .operator .times => some .times
  | .operator .divide => some .divide
  | .operator .power => some .power
  | .keyword .or_ => some .or_
  | .keyword .and_ => some .and_
  | .keyword .like_ => some .like
  | .keyword .matches_ => some .matches_
  | .keyword .contains_ => some .contains
  | .keyword .before_ => some .before
  | .keyword .after_ => some .after
  | _ => none

/-! ## Trees -/

/-- A tree of the language. The last argument of each node is the offset it was
    read from. -/
inductive Node where
  | literal (value : Value) (position : Option Nat)
  | reference (name : String) (position : Option Nat)
  | unary (operator : UnaryOperator) (operand : Node) (position : Option Nat)
  | binary (operator : BinaryOperator) (left right : Node) (position : Option Nat)
  | call (name : String) (arguments : List Node) (position : Option Nat)
  /-- `IF condition THEN thenBranch` -/
  | when (condition thenBranch : Node) (position : Option Nat)
  /-- `IF condition THEN thenBranch ELSE elseBranch` -/
  | choice (condition thenBranch elseBranch : Node) (position : Option Nat)
  /-- `WHILE condition DO body` -/
  | loop (condition body : Node) (position : Option Nat)
  | sequence (statements : List Node) (position : Option Nat)
  | assignment (name : String) (value : Node) (position : Option Nat)
  /-- `LOG expression` -/
  | log (expression : Node) (position : Option Nat)

namespace Node

/-- The offset that a node was read from. -/
def position : Node → Option Nat
  | literal _ p | reference _ p | unary _ _ p | binary _ _ _ p | call _ _ p | when _ _ p
  | choice _ _ _ p | loop _ _ p | sequence _ p | assignment _ _ p | log _ p => p

/-- The direct parts of a node, in the order in which they are evaluated. -/
def children : Node → List Node
  | literal .. | reference .. => []
  | unary _ x _ => [x]
  | binary _ l r _ => [l, r]
  | call _ xs _ => xs
  | when c t _ => [c, t]
  | choice c t e _ => [c, t, e]
  | loop c b _ => [c, b]
  | sequence xs _ => xs
  | assignment _ x _ => [x]
  | log x _ => [x]

end Node

/-! ### Forgetting offsets -/

mutual

/-- The tree without offsets. -/
def Node.bare : Node → Node
  | .literal v _ => .literal v none
  | .reference n _ => .reference n none
  | .unary o x _ => .unary o x.bare none
  | .binary o l r _ => .binary o l.bare r.bare none
  | .call n xs _ => .call n (bareAll xs) none
  | .when c t _ => .when c.bare t.bare none
  | .choice c t e _ => .choice c.bare t.bare e.bare none
  | .loop c b _ => .loop c.bare b.bare none
  | .sequence xs _ => .sequence (bareAll xs) none
  | .assignment n x _ => .assignment n x.bare none
  | .log x _ => .log x.bare none

/-- Trees without offsets. -/
def bareAll : List Node → List Node
  | [] => []
  | x :: xs => x.bare :: bareAll xs

end

/-! ### Equal trees -/

mutual

/-- Two trees are equal up to formatting. -/
def Node.sameTree : Node → Node → Bool
  | .literal v _, .literal w _ => v == w
  | .reference n _, .reference m _ => n == m
  | .unary o x _, .unary o' x' _ => o == o' && x.sameTree x'
  | .binary o l r _, .binary o' l' r' _ => o == o' && l.sameTree l' && r.sameTree r'
  | .call n xs _, .call n' xs' _ => n == n' && sameTrees xs xs'
  | .when c t _, .when c' t' _ => c.sameTree c' && t.sameTree t'
  | .choice c t e _, .choice c' t' e' _ => c.sameTree c' && t.sameTree t' && e.sameTree e'
  | .loop c b _, .loop c' b' _ => c.sameTree c' && b.sameTree b'
  | .sequence xs _, .sequence xs' _ => sameTrees xs xs'
  | .assignment n x _, .assignment n' x' _ => n == n' && x.sameTree x'
  | .log x _, .log x' _ => x.sameTree x'
  | _, _ => false

/-- Two lists of trees are equal up to formatting. -/
def sameTrees : List Node → List Node → Bool
  | [], [] => true
  | x :: xs, y :: ys => x.sameTree y && sameTrees xs ys
  | _, _ => false

end

/-! ### All nodes of a tree -/

mutual

/-- A node and all below it, each before its parts. -/
def Node.walk : Node → List Node
  | .literal v p => [.literal v p]
  | .reference n p => [.reference n p]
  | .unary o x p => .unary o x p :: x.walk
  | .binary o l r p => .binary o l r p :: (l.walk ++ r.walk)
  | .call n xs p => .call n xs p :: walkAll xs
  | .when c t p => .when c t p :: (c.walk ++ t.walk)
  | .choice c t e p => .choice c t e p :: (c.walk ++ (t.walk ++ e.walk))
  | .loop c b p => .loop c b p :: (c.walk ++ b.walk)
  | .sequence xs p => .sequence xs p :: walkAll xs
  | .assignment n x p => .assignment n x p :: x.walk
  | .log x p => .log x p :: x.walk

/-- The nodes of several trees, one after the other. -/
def walkAll : List Node → List Node
  | [] => []
  | x :: xs => x.walk ++ walkAll xs

end

namespace Node

/-- The names of the variables that a tree reads. -/
def referencedVariables (t : Node) : List String :=
  t.walk.filterMap fun | reference n _ => some n | _ => none

/-- The names of the functions that a tree calls. -/
def referencedFunctions (t : Node) : List String :=
  t.walk.filterMap fun | call n _ _ => some n | _ => none

/-- The names that a tree assigns. -/
def assignedNames (t : Node) : List String :=
  t.walk.filterMap fun | assignment n _ _ => some n | _ => none

end Node

/-- Names in order, each once. -/
def sortedNames (names : List String) : List String :=
  (names.mergeSort fun a b => a ≤ b).eraseReps

end Rulebook

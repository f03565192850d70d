/-
  Rendering — a tree written as source text with all grouping explicit.

  * `literalText` writes a value as a literal; a text is quoted so that no
    character can end it early;
  * `Node.textIn` writes a node: operations in parentheses, where a chain of one
    tier shares a single pair, and statements in words;
  * `Node.render` writes a whole script: a sequence of two or more statements
    stands without `BEGIN` and `END`.
-/
import Rulebook.Node

namespace Rulebook

/-! ## Literals -/

/-- A character within a quoted text. -/
def escapeChar : Char → List Char
  | '\\' => ['\\', '\\']
  | '"' => ['\\', '"']
  | '\n' => ['\\', 'n']
  | '\t' => ['\\', 't']
  | '\r' => ['\\', 'r']
  | c => [c]

/-- A text in quotes. -/
def quotedText (s : String) : String :=
  String.ofList ('"' :: (s.toList.flatMap escapeChar ++ ['"']))

/-- A value written as a literal. -/
def literalText : Value → String
  | .null => "NULL"
  | .boolean b => if b then "TRUE" else "FALSE"
  | .number x => Number.plainText x
  | .text s => quotedText s

/-! ## Trees -/

/-- Pieces with a separator between each two. -/
def joined (separator : String) : List String → String
  | [] => ""
  | [s] => s
  | s :: rest => s ++ separator ++ joined separator rest

/-- Statements between `BEGIN` and `END`. -/
def blockText : List String → String
  | [] => "BEGIN END"
  | texts => "BEGIN " ++ joined "; " texts ++ " END"

/-- A unary operator with what stands between it and its operand. -/
def UnaryOperator.mark (o : UnaryOperator) : String :=
  if o = .not_ then "NOT " else o.symbol

mutual

/-- A node as source text, as the left operand of an operator of `tier`: an
    operation of the same tier goes on the chain without parentheses of its own. -/
def Node.textIn (tier : Option Tier) : Node → String
  | .literal v _ => literalText v
  | .reference n _ => n
  | .unary o x _ => "(" ++ o.mark ++ x.textIn none ++ ")"
  | .binary o l r _ =>
    let operation := l.textIn o.tier? ++ " " ++ o.symbol ++ " " ++ r.textIn none
    if tier.isSome && o.tier? = tier then operation else "(" ++ operation ++ ")"
  | .call n xs _ => n ++ "(" ++ joined ", " (textAll xs) ++ ")"
  | .when c t _ => "IF " ++ c.textIn none ++ " THEN " ++ t.textIn none
  | .choice c t e _ =>
    "IF " ++ c.textIn none ++ " THEN " ++ t.textIn none ++ " ELSE " ++ e.textIn none
  | .loop c b _ => "WHILE " ++ c.textIn none ++ " DO " ++ b.textIn none
  | .sequence xs _ => blockText (textAll xs)
  | .assignment n x _ => n ++ " = " ++ x.textIn none
  | .log x _ => "LOG " ++ x.textIn none
termination_by structural x => x

/-- Several nodes as source text. -/
def textAll : List Node → List String
  | [] => []
  | x :: xs => x.textIn none :: textAll xs
termination_by structural xs => xs

end

/-- A node as source text, on its own. -/
def Node.text (x : Node) : String := x.textIn none

/-- A script as source text. -/
def Node.render : Node → String
  | .sequence (x :: y :: rest) _ => joined "; " (textAll (x :: y :: rest))
  | x => x.text

end Rulebook

/-
  Tokens — the words of the language with the place where each stands.

  * `TokenKind` says what a token is and carries its meaning: the number, the
    text without its quotes, the name, the operator or the keyword;
  * `Keyword.ofName?` finds a keyword without regard to case, so no keyword can
    be a name in any spelling;
  * `Token.shown` is how a token is quoted in an error.
-/
import Rulebook.Failure
import Rulebook.Data.Written

namespace Rulebook

open Text

/-! ## Operators and keywords -/

/-- The operators that are written as symbols. -/
inductive Operator where
  | equal
  | notEqual
  | less
  | lessEqual
  | greater
  | greaterEqual
  | plus
  | minus
  | times
  | divide
  | power
  deriving DecidableEq, Repr

/-- The symbol of an operator. -/
def Operator.symbol : Operator → String
  | equal => "="
  | notEqual => "!="
  | less => "<"
  | lessEqual => "<="
  | greater => ">"
  | greaterEqual => ">="
  | plus => "+"
  | minus => "-"
  | times => "*"
  | divide => "/"
  | power => "^"

/-- The reserved words. -/
inductive Keyword where
  | and_
  | or_
  | not_
  | true_
  | false_
  | null_
  | like_
  | matches_
  | contains_
  | before_
  | after_
  | if_
  | then_
  | else_
  | while_
  | do_
  | begin_
  | end_
  | log_
  deriving DecidableEq, Repr

namespace Keyword

/-- A keyword as it is written. -/
def word : Keyword → String
  | and_ => "AND"
  | or_ => "OR"
  | not_ => "NOT"
  | true_ => "TRUE"
  | false_ => "FALSE"
  | null_ => "NULL"
  | like_ => "LIKE"
  | matches_ => "MATCHES"
  | contains_ => "CONTAINS"
  | before_ => "BEFORE"
  | after_ => "AFTER"
  | if_ => "IF"
  | then_ => "THEN"
  | else_ => "ELSE"
  | while_ => "WHILE"
  | do_ => "DO"
  | begin_ => "BEGIN"
  | end_ => "END"
  | log_ => "LOG"

/-- Every keyword. -/
def all : List Keyword :=
  [and_, or_, not_, true_, false_, null_, like_, matches_, contains_, before_, after_,
    if_, then_, else_, while_, do_, begin_, end_, log_]

/-- The keyword that a name spells, in any mixture of cases. -/
def ofName? (name : List Char) : Option Keyword :=
  all.find? fun k => k.word.toList == name.map Char.toUpper

end Keyword

/-! ## Tokens -/

/-- What a token is. -/
inductive TokenKind where
  | number (x : Float)
  | text (s : String)
  | name (n : String)
  | operator (o : Operator)
  | keyword (k : Keyword)
  | leftParen
  | rightParen
  | comma
  | semicolon
  /-- A keyword or an operator that the language does not have, as a token that was not
      read from a text can be. -/
  | stray (isKeyword : Bool) (v : Value)
  /-- The end of the input. -/
  | finish
  deriving DecidableEq

/-- A token and where it stands; `lexeme` is the text it was read from. -/
structure Token where
  kind : TokenKind
  position : Nat
  line : Nat
  column : Nat
  lexeme : String
  deriving DecidableEq

namespace TokenKind

/-- The name of a kind. -/
def label : TokenKind → String
  | number _ => "NUMBER"
  | text _ => "STRING"
  | name _ => "IDENTIFIER"
  | operator _ => "OPERATOR"
  | keyword _ => "KEYWORD"
  | leftParen => "LPAREN"
  | rightParen => "RPAREN"
  | comma => "COMMA"
  | semicolon => "SEMICOLON"
  | stray isKeyword _ => if isKeyword then "KEYWORD" else "OPERATOR"
  | finish => "EOF"

/-- What a kind carries. -/
def value : TokenKind → Value
  | number x => .number x
  | text s => .text s
  | name n => .text n
  | operator o => .text o.symbol
  | keyword k => .text k.word
  | stray _ v => v
  | _ => .null

/-- What a kind carries, in words. -/
def valueText : TokenKind → String
  | number x => Number.canonicalText x
  | text s => s
  | name n => n
  | operator o => o.symbol
  | keyword k => k.word
  | stray _ (.text s) => s
  | stray _ v => v.written
  | _ => "None"

end TokenKind

namespace Token

/-- The end of the input at a place. -/
def finishAt (position : Nat) (place : LineColumn) : Token :=
  ⟨.finish, position, place.line, place.column, ""⟩

/-- The end of an input that does not say where it ends. -/
def unplacedFinish : Token := finishAt 0 LineColumn.first

/-- A token as an error quotes it: its text, or else what it carries. -/
def shown (t : Token) : String :=
  if !t.lexeme.isEmpty then t.lexeme
  else if t.kind = .finish then "end of input"
  else t.kind.valueText

/-- A token in messages. -/
def written (t : Token) : String :=
  writtenParts "Token" [t.kind.label, t.kind.value.written, s!"pos={t.position}"]

/-- An error at a token. -/
def error (t : Token) (cause : Cause) : ExpressionError :=
  .atPlace cause t.position ⟨t.line, t.column⟩

end Token

end Rulebook

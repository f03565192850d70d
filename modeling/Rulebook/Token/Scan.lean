/-
  Scanning — from text to tokens.

  * `Lexeme.first?` is the lexeme at the start of a text: a run of blanks, or
    the first token in the order of the language's patterns (longer symbols
    first, then numbers, texts and names);
  * `scan` gives the tokens of a text, with the end of the input last, or those
    before the first character at which no lexeme starts, with the error;
  * `tokenize` gives the tokens or the error.
-/
import Rulebook.Token
import Rulebook.Number.Numeral

namespace Rulebook

open Text Number

/-! ## Lexemes -/

/-- A lexeme at the start of a text: its length, and what it means if it is
    more than blanks. -/
structure Lexeme where
  kind : Option TokenKind
  length : Nat
  pos : 0 < length

/-- A letter or the underscore. -/
def beginsName (c : Char) : Bool := c.isAlpha || c = '_'

/-- A letter, a digit or the underscore, of ASCII. -/
def continuesName (c : Char) : Bool := c.isAlphanum || c = '_'

/-- The symbols of two characters. -/
def pairSymbol? : Char → Char → Option TokenKind
  | '=', '=' => some (.operator .equal)
  | '!', '=' => some (.operator .notEqual)
  | '<', '>' => some (.operator .notEqual)
  | '<', '=' => some (.operator .lessEqual)
  | '>', '=' => some (.operator .greaterEqual)
  | '&', '&' => some (.keyword .and_)
  | '|', '|' => some (.keyword .or_)
  | _, _ => none

/-- The symbols of one character. -/
def symbol? : Char → Option TokenKind
  | '=' => some (.operator .equal)
  | '<' => some (.operator .less)
  | '>' => some (.operator .greater)
  | '!' => some (.keyword .not_)
  | '+' => some (.operator .plus)
  | '-' => some (.operator .minus)
  | '*' => some (.operator .times)
  | '/' => some (.operator .divide)
  | '^' => some (.operator .power)
  | '(' => some .leftParen
  | ')' => some .rightParen
  | ',' => some .comma
  | ';' => some .semicolon
  | _ => none

/-- The length of the number at the start: digits, digits with a point and
    digits, or a point and digits; zero where there is none. -/
def numberLength (cs : List Char) : Nat :=
  let whole := (cs.takeWhile isDigit).length
  let fraction := match cs.drop whole with
    | '.' :: rest => (rest.takeWhile isDigit).length
    | _ => 0
  if fraction = 0 then whole else whole + 1 + fraction

/-- The number of characters before the closing quote; none if the text does
    not close. A backslash takes the character after it along. -/
def bodyLength? (quote : Char) : List Char → Option Nat
  | [] => none
  | '\\' :: rest => match rest with
    | _ :: rest => (bodyLength? quote rest).map (· + 2)
    | [] => none
  | c :: rest => if c = quote then some 0 else (bodyLength? quote rest).map (· + 1)

/-- The text that a body stands for: a backslash makes the next character
    literal, except for the three control escapes. -/
def unescape : List Char → List Char
  | '\\' :: 'n' :: rest => '\n' :: unescape rest
  | '\\' :: 't' :: rest => '\t' :: unescape rest
  | '\\' :: 'r' :: rest => '\r' :: unescape rest
  | '\\' :: c :: rest => c :: unescape rest
  | c :: rest => c :: unescape rest
  | [] => []

/-- A name, or the keyword that it spells. -/
def nameKind (cs : List Char) : TokenKind :=
  match Keyword.ofName? cs with
  | some k => .keyword k
  | none => .name (String.ofList cs)

/-- The lexeme at the start of a text that begins with `c`. -/
def Lexeme.startingWith? (c : Char) (rest : List Char) : Option Lexeme :=
  if isBlank c then some ⟨none, 1 + (rest.takeWhile isBlank).length, by omega⟩
  else match rest.head?.bind (pairSymbol? c) with
  | some k => some ⟨k, 2, by decide⟩
  | none => match symbol? c with
    | some k => some ⟨k, 1, by decide⟩
    | none =>
      if h : 0 < numberLength (c :: rest) then
        some ⟨some (.number (numeralValue ((c :: rest).take (numberLength (c :: rest))))),
          numberLength (c :: rest), h⟩
      else if c = '"' || c = '\'' then
        (bodyLength? c rest).map fun n =>
          ⟨some (.text (String.ofList (unescape (rest.take n)))), n + 2, by omega⟩
      else if beginsName c then
        let n := (rest.takeWhile continuesName).length
        some ⟨some (nameKind (c :: rest.take n)), n + 1, by omega⟩
      else none

/-- The lexeme at the start of a text. -/
def Lexeme.first? : List Char → Option Lexeme
  | [] => none
  | c :: rest => startingWith? c rest

/-! ## The tokens of a text -/

/-- What is wrong with a character at which no lexeme starts. -/
def misfit (c : Char) : Cause :=
  if c = '"' || c = '\'' then .unterminatedText c else .unexpectedCharacter c

/-- The tokens of a text that starts at an offset and a place, and the error
    that ends them, if any. -/
def scanFrom (position : Nat) (place : LineColumn) (cs : List Char) :
    List Token × Option ExpressionError :=
  match cs with
  | [] => ([.finishAt position place], none)
  | c :: rest => match Lexeme.first? (c :: rest) with
    | none => ([], some (.atPlace (misfit c) position place))
    | some lexeme =>
      let text := (c :: rest).take lexeme.length
      let (tokens, error) := scanFrom (position + text.length) (text.foldl .advance place)
        ((c :: rest).drop lexeme.length)
      match lexeme.kind with
      | none => (tokens, error)
      | some k =>
        (⟨k, position, place.line, place.column, String.ofList text⟩ :: tokens, error)
termination_by cs.length
decreasing_by
  have := lexeme.pos
  simp only [List.length_drop, List.length_cons]
  omega

/-- The tokens of a text, up to the error if there is one. -/
def scan (source : String) : List Token × Option ExpressionError :=
  scanFrom 0 LineColumn.first source.toList

/-- The tokens of a text, the end of the input last. -/
def tokenize (source : String) : Except ExpressionError (List Token) :=
  match scan source with
  | (tokens, none) => .ok tokens
  | (_, some e) => .error e

end Rulebook

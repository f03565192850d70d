/-
  Patterns — regular expressions, as trees.

  * `CharTest` is what one character is tested for, `CharTest.accepts` the test;
  * `Anchor` is a condition on a position between characters;
  * `Pattern` is the tree. Flags such as ignoring case are resolved into the
    tests and anchors, so a tree means the same wherever it stands;
  * `Pattern.width` bounds the length of what a pattern can match, and
    `Pattern.fault?` is the reason, if any, why a tree that can be written
    cannot be searched for.
-/
import Rulebook.Text.Folding
import Rulebook.Text.Blank
import Rulebook.Text.Digit
import Rulebook.Text.Word

namespace Rulebook

open Text

/-! ## Tests of one character -/

/-- The named classes of characters. -/
inductive CharClass where
  | digit
  | space
  | word
  deriving DecidableEq, Repr

/-- A character is in a class; `ascii` keeps the class to ASCII. -/
def CharClass.holds (ascii : Bool) (c : Char) : CharClass → Bool
  | digit => if ascii then c.isDigit else isDigit c
  | space => isBlank c && (!ascii || (c.toNat < 0x80 && !isInformationSeparator c))
  | word => if ascii then c.isAlphanum || c == '_' else isWord c

/-- A member of a set of characters. -/
inductive SetItem where
  /-- The character with a code point; there may be none. -/
  | code (n : Nat)
  | range (first last : Nat)
  | named (kind : CharClass) (negated ascii : Bool)
  deriving DecidableEq, Repr

/-- The largest code point to which sets fold case letter by letter. -/
def foldedLimit : Nat := 0xFFFF

/-- A folded code point is in a range, up to case. Beyond the folded limit a
    range holds what it holds itself and whatever has its upper case in it. -/
def inFoldedRange (folding : Folding) (first last c : Nat) : Bool :=
  (List.range' first (min last foldedLimit + 1 - first)).any (isCaseOf folding · c) ||
    (foldedLimit < last &&
      ((first ≤ c && c ≤ last) || (first ≤ upperCode c && upperCode c ≤ last)))

/-- A set has a character, given folded, as a member. -/
def SetItem.has (folding : Folding) (c : Char) : SetItem → Bool
  | code n =>
    if folding = .exact ∨ foldedLimit < n then c.toNat = n else isCaseOf folding n c.toNat
  | range first last =>
    if folding = .exact then first ≤ c.toNat && c.toNat ≤ last
    else inFoldedRange folding first last c.toNat
  | named kind negated ascii => kind.holds ascii c != negated

/-- What one character is tested for. -/
inductive CharTest where
  /-- Any character, or any but a line break. -/
  | any (lineBreaks : Bool)
  | letter (folding : Folding) (n : Nat)
  | set (folding : Folding) (negated : Bool) (items : List SetItem)
  deriving DecidableEq, Repr

/-- A character folded. -/
def foldChar (folding : Folding) (c : Char) : Char := Char.ofNat (foldCode folding c.toNat)

/-- A character passes a test. -/
def CharTest.accepts (c : Char) : CharTest → Bool
  | any lineBreaks => lineBreaks || c ≠ '\n'
  | letter folding n => isCaseOf folding n (foldCode folding c.toNat)
  | set folding negated items => items.any (·.has folding (foldChar folding c)) != negated

/-! ## Conditions on a position -/

/-- A condition on a position. -/
inductive Anchor where
  | textStart
  | lineStart
  | textEnd
  /-- At the end, or before a line break that ends the text. -/
  | lastLineEnd
  | lineEnd
  /-- Between a word character and another, or, `negated`, not so. -/
  | wordBoundary (negated ascii : Bool)
  deriving DecidableEq, Repr

/-- The position holds a word character. -/
def isWordAt (ascii : Bool) (c : Option Char) : Bool :=
  c.any fun c => CharClass.word.holds ascii c

/-- A condition holds at a position of a text. No position of the empty text
    is a word boundary, nor is any one not so. -/
def Anchor.holds (subject : Array Char) (position : Nat) : Anchor → Bool :=
  let before := if position = 0 then none else subject[position - 1]?
  let after := subject[position]?
  fun
  | textStart => position == 0
  | lineStart => before.isNone || before == some '\n'
  | textEnd => after.isNone
  | lastLineEnd => after.isNone || (after == some '\n' && position + 1 == subject.size)
  | lineEnd => after.isNone || after == some '\n'
  | wordBoundary negated ascii =>
    !subject.isEmpty && ((isWordAt ascii before != isWordAt ascii after) != negated)

/-! ## Trees -/

/-- Bounds on the length of a match. -/
structure Width where
  least : Nat
  most : Nat
  deriving DecidableEq, Repr

/-- How a repetition chooses the number of its passes. -/
inductive Greed where
  | greedy
  | lazy
  /-- As many as there are, without giving any back. -/
  | possessive
  deriving DecidableEq, Repr

/-- A regular expression. -/
inductive Pattern where
  | empty
  | one (test : CharTest)
  | anchor (condition : Anchor)
  | sequence (first second : Pattern)
  | either (first second : Pattern)
  | repeated (greed : Greed) (least : Nat) (most : Option Nat) (body : Pattern)
  | group (index : Nat) (body : Pattern)
  /-- The text that a group matched, which is `width` long. -/
  | again (folding : Folding) (index : Nat) (width : Width)
  | look (behind negated : Bool) (body : Pattern)
  | atomic (body : Pattern)
  | conditional (index : Nat) (yes no : Pattern)
  deriving DecidableEq, Repr

namespace Width

/-- The width beyond which lengths are not told apart. -/
def limit : Nat := 1 <<< 64

/-- A width within the limit. -/
def capped (least most : Nat) : Width := ⟨min least limit, min most limit⟩

/-- The width of one after the other. -/
def plus (a b : Width) : Width := capped (a.least + b.least) (a.most + b.most)

/-- The width of one or the other. -/
def or (a b : Width) : Width := ⟨min a.least b.least, max a.most b.most⟩

/-- The width of a number of passes. -/
def times (a : Width) (least : Nat) : Option Nat → Width
  | some most => capped (a.least * least) (a.most * most)
  | none => capped (a.least * least) (if a.most = 0 then 0 else limit)

end Width

namespace Pattern

/-- Bounds on the length of what a pattern matches. -/
def width : Pattern → Width
  | empty | anchor _ | look .. => ⟨0, 0⟩
  | one _ => ⟨1, 1⟩
  | sequence p q => p.width.plus q.width
  | either p q | conditional _ p q => p.width.or q.width
  | repeated _ least most body => body.width.times least most
  | group _ body | atomic body => body.width
  | again _ _ w => w

/-- The largest distance that a matcher looks behind. -/
def largestLookBehind : Nat := (1 <<< 32) - 1

/-- Why a matcher cannot look behind for a pattern of some width. -/
def lookBehindFault? (w : Width) : Option String :=
  if largestLookBehind < w.least then some "looks too much behind"
  else if w.least ≠ w.most then some "look-behind requires fixed-width pattern"
  else none

/-- Why a pattern cannot be searched for: the first part that looks behind for
    a pattern without a fixed width, or that repeats although `single` forbids it. -/
def fault? (single : Bool) : Pattern → Option String
  | sequence p q | either p q | conditional _ p q => p.fault? single <|> q.fault? single
  | repeated greed _ _ body =>
    if single then
      some <| "internal: unsupported template operator " ++ match greed with
        | .greedy => "MAX_REPEAT"
        | .lazy => "MIN_REPEAT"
        | .possessive => "POSSESSIVE_REPEAT"
    else body.fault? single
  | group _ body | atomic body => body.fault? single
  | look behind _ body =>
    (if behind then lookBehindFault? body.width else none) <|> body.fault? single
  | _ => none

end Pattern

end Rulebook

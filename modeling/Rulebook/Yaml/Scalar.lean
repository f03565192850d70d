/-
  Scalars — the texts that quoted, plain and block scalars stand for.

  * `quotedScalar?` reads a text in quotes, up to the closing one;
  * `plainScalar` reads a text without quotes;
  * `blockScalar?` reads the indented lines after `|` or `>`.

  Where a text is broken over lines, a single break counts as a space, and of
  more breaks the first does not count.
-/
import Rulebook.Yaml.Cursor

namespace Rulebook.Yaml

open Cursor

/-- The text of a break followed by more breaks. -/
def foldBreaks (first more : List Char) : List Char :=
  if first ≠ ['\n'] then first ++ more
  else if more.isEmpty then [' '] else more

/-! ## Texts in quotes -/

/-- The breaks and the indentation after a first break; no document may begin or
    end there. -/
def quotedBreaks? : Nat → Cursor → Option (List Char × Cursor)
  | 0, _ => none
  | n + 1, c =>
    if c.atDocumentMark then none
    else match (c.skipWhile isSpace).takeBreak with
      | ([], c) => some ([], c)
      | (b, c) => do
        let (more, c) ← quotedBreaks? n c
        return (b ++ more, c)

/-- Spaces within quotes, or the line break that they stand before. -/
def quotedGap? (c : Cursor) : Option (List Char × Cursor) :=
  let (spaces, c) := c.takeWhile isSpace
  match c.takeBreak with
  | ([], c) => some (spaces, c)
  | (b, c) => do
    let (more, c) ← quotedBreaks? c.room c
    return (foldBreaks b more, c)

/-- The character that a letter after a backslash stands for. -/
def escapeLetter? : Char → Option Char
  | '0' => some '\x00'
  | 'a' => some '\x07'
  | 'b' => some '\x08'
  | 't' => some '\t'
  | '\t' => some '\t'
  | 'n' => some '\n'
  | 'v' => some '\x0B'
  | 'f' => some '\x0C'
  | 'r' => some '\r'
  | 'e' => some '\x1B'
  | ' ' => some ' '
  | '"' => some '"'
  | '\\' => some '\\'
  | '/' => some '/'
  | 'N' => some '\x85'
  | '_' => some '\xA0'
  | 'L' => some '\u2028'
  | 'P' => some '\u2029'
  | _ => none

/-- How many hexadecimal digits follow a letter after a backslash. -/
def escapeLength? : Char → Option Nat
  | 'x' => some 2
  | 'u' => some 4
  | 'U' => some 8
  | _ => none

/-- The character that hexadecimal digits name. -/
def namedChar? (digits : List Char) : Option Char :=
  let n := valueIn 16 digits
  if n.isValidChar then some (Char.ofNat n) else none

/-- What stands after a backslash. -/
def escape? (c : Cursor) : Option (List Char × Cursor) := do
  let ch ← c.rest.head?
  match escapeLetter? ch, escapeLength? ch with
  | some e, _ => return ([e], c.step)
  | none, some count =>
    let digits := c.step.rest.take count
    if digits.length = count ∧ digits.all isHexDigit then
      return ([← namedChar? digits], c.advance (count + 1))
    else none
  | none, none =>
    if isBreak ch then
      let c := c.takeBreak.2
      quotedBreaks? c.room c
    else none

/-- The text up to the closing quote, and the place after the quote. -/
def quotedFrom? (quote : Char) : Nat → Cursor → Option (List Char × Cursor)
  | 0, _ => none
  | n + 1, c => do
    let ch ← c.rest.head?
    if ch = quote then
      if quote = '\'' && c.step.at? quote then
        let (more, c) ← quotedFrom? quote n (c.advance 2)
        return (ch :: more, c)
      else return ([], c.step)
    else
      let (piece, c) ←
        if quote = '"' && ch = '\\' then escape? c.step
        else if isSpace ch || isBreak ch then quotedGap? c
        else some ([ch], c.step)
      let (more, c) ← quotedFrom? quote n c
      return (piece ++ more, c)

/-- The text of a quoted scalar that begins here. -/
def quotedScalar? (c : Cursor) : Option (List Char × Cursor) := do
  quotedFrom? (← c.rest.head?) c.room c.step

/-! ## Plain texts -/

/-- A character that ends plain texts within brackets. -/
def isFlowMark (c : Char) : Bool := c = ',' || c = '[' || c = ']' || c = '{' || c = '}'

/-- A plain text ends before these characters. -/
def plainEnds (inFlow : Bool) : List Char → Bool
  | [] => true
  | ':' :: rest =>
    match rest with
    | [] => true
    | ch :: _ => isSpace ch || isBreak ch || (inFlow && isFlowMark ch)
  | ch :: _ => isSpace ch || isBreak ch || (inFlow && (isFlowMark ch || ch = '?'))

/-- A word of a plain text. -/
def plainWord (inFlow : Bool) : List Char → List Char
  | [] => []
  | ch :: rest => if plainEnds inFlow (ch :: rest) then [] else ch :: plainWord inFlow rest

/-- What stands between two words of a plain text. -/
structure Gap where
  text : List Char
  /-- There is a line break in it. -/
  broken : Bool
  cursor : Cursor

/-- The breaks and the indentation after a first break; nothing where a document
    begins or ends. -/
def plainBreaks : Nat → Cursor → Option (List Char) × Cursor
  | 0, c => (some [], c)
  | n + 1, c =>
    match (c.skipWhile (· = ' ')).takeBreak with
    | ([], c) => (some [], c)
    | (b, c) =>
      if c.atDocumentMark then (none, c)
      else
        let (more, c) := plainBreaks n c
        (more.map (b ++ ·), c)

/-- The gap that begins here. -/
def plainGap (c : Cursor) : Gap :=
  let (spaces, c) := c.takeWhile (· = ' ')
  match c.takeBreak with
  | ([], c) => ⟨spaces, false, c⟩
  | (b, c) =>
    if c.atDocumentMark then ⟨[], true, c⟩
    else match plainBreaks c.room c with
      | (some more, c) => ⟨foldBreaks b more, true, c⟩
      | (none, c) => ⟨[], true, c⟩

/-- The rest of a plain text after a gap; outside brackets its lines must be
    indented by `indent`. -/
def plainFrom (inFlow : Bool) (indent : Int) : Nat → Gap → Gap
  | 0, gap => { gap with text := [] }
  | n + 1, gap =>
    let c := gap.cursor
    let word := if c.at? '#' then [] else plainWord inFlow c.rest
    if word.isEmpty then { gap with text := [] }
    else
      let next := plainGap (c.advance word.length)
      let last := next.text.isEmpty || next.cursor.at? '#'
        || (!inFlow && (next.cursor.column : Int) < indent)
      let more := if last then { next with text := [] } else plainFrom inFlow indent n next
      { more with text := gap.text ++ word ++ more.text }

/-- The plain text that begins here, whether a line break follows it, and the
    place after it. -/
def plainScalar (inFlow : Bool) (indent : Int) (c : Cursor) : Gap :=
  plainFrom inFlow indent c.room ⟨[], false, c⟩

/-! ## Blocks -/

/-- What becomes of the breaks at the end of a block. -/
inductive Chomping where
  /-- None is kept. -/
  | strip
  /-- One is kept. -/
  | clip
  /-- All are kept. -/
  | keep
  deriving DecidableEq

/-- What follows the mark of a block. -/
structure BlockHeader where
  chomping : Chomping
  /-- The indentation, where it is given. -/
  increment : Option Nat

/-- A sign for the breaks at the end. -/
def chomping? (c : Cursor) : Option (Chomping × Cursor) :=
  if c.at? '+' then some (.keep, c.step)
  else if c.at? '-' then some (.strip, c.step)
  else none

/-- A digit for the indentation; zero is none. -/
def increment? (c : Cursor) : Option (Option Nat × Cursor) :=
  match c.rest.head? with
  | some ch =>
    if ch.isDigit then
      if ch = '0' then none else some (some (hexValue ch), c.step)
    else some (none, c)
  | none => some (none, c)

/-- The header of a block, and the place of the line after it. -/
def blockHeader? (c : Cursor) : Option (BlockHeader × Cursor) := do
  let (header, c) ← match chomping? c with
    | some (chomping, c) => do
      let (increment, c) ← increment? c
      some (BlockHeader.mk chomping increment, c)
    | none => do
      let (increment, c) ← increment? c
      match increment, chomping? c with
      | some n, some (chomping, c) => some (⟨chomping, some n⟩, c)
      | increment, _ => some (⟨.clip, increment⟩, c)
  if c.atGap then return (header, ← c.finishLine?) else none

/-- The empty lines before a block, the deepest column reached, and the place of
    its first line. -/
def blockStart : Nat → Nat → Cursor → List Char × Nat × Cursor
  | 0, deepest, c => ([], deepest, c)
  | n + 1, deepest, c =>
    let c := c.skipWhile (· = ' ')
    let deepest := max deepest c.column
    match c.takeBreak with
    | ([], c) => ([], deepest, c)
    | (b, c) =>
      let (more, deepest, c) := blockStart n deepest c
      (b ++ more, deepest, c)

/-- Past spaces, but not past a column. -/
def indentTo (column : Nat) (c : Cursor) : Cursor :=
  c.advance ((c.rest.take (column - c.column)).takeWhile (· = ' ')).length

/-- The empty lines within a block, and the place of the next line. -/
def blockBreaks (indent : Nat) : Nat → Cursor → List Char × Cursor
  | 0, c => ([], c)
  | n + 1, c =>
    match (indentTo indent c).takeBreak with
    | ([], c) => ([], c)
    | (b, c) =>
      let (more, c) := blockBreaks indent n c
      (b ++ more, c)

/-- What was read of a block. -/
structure Block where
  text : List Char
  /-- The break of the last line. -/
  lastBreak : List Char
  /-- The empty lines after it. -/
  breaks : List Char
  cursor : Cursor

/-- The lines of a block, after empty lines. -/
def blockLines (folded : Bool) (indent : Nat) : Nat → List Char → Cursor → Block
  | 0, breaks, c => ⟨[], [], breaks, c⟩
  | n + 1, breaks, c =>
    let beginsWithSpace (c : Cursor) : Bool := c.rest.head?.any isSpace
    if c.column ≠ indent ∨ c.rest.isEmpty then ⟨[], [], breaks, c⟩
    else
      let plain := !beginsWithSpace c
      let (line, c) := c.takeWhile (!isBreak ·)
      let (lastBreak, c) := c.takeBreak
      let (after, c) := blockBreaks indent c.room c
      let text := breaks ++ line
      if c.column ≠ indent ∨ c.rest.isEmpty then ⟨text, lastBreak, after, c⟩
      else
        let joint :=
          if folded && lastBreak = ['\n'] && plain && !beginsWithSpace c then
            if after.isEmpty then [' '] else []
          else lastBreak
        let more := blockLines folded indent n after c
        { more with text := text ++ joint ++ more.text }

/-- The text of a block scalar whose mark stands here; `least` is the least
    indentation that its lines can have. -/
def blockScalar? (least : Nat) (c : Cursor) : Option (List Char × Cursor) := do
  let folded := c.at? '>'
  let (header, c) ← blockHeader? c.step
  let (breaks, indent, c) := match header.increment with
    | none =>
      let (breaks, deepest, c) := blockStart c.room 0 c
      (breaks, max least deepest, c)
    | some n =>
      let indent := least + n - 1
      let (breaks, c) := blockBreaks indent c.room c
      (breaks, indent, c)
  let block := blockLines folded indent c.room breaks c
  let ending := match header.chomping with
    | .strip => []
    | .clip => block.lastBreak
    | .keep => block.lastBreak ++ block.breaks
  return (block.text ++ ending, block.cursor)

end Rulebook.Yaml

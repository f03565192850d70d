/-
  Cursors — a place in a YAML text: what is still to be read, with the line and
  the column that it stands in.
-/
namespace Rulebook.Yaml

/-- A place in a text. -/
structure Cursor where
  rest : List Char
  index : Nat
  line : Nat
  column : Nat

/-- A character that ends a line. -/
def isBreak (c : Char) : Bool := c = '\n' || c = '\x85' || c = '\u2028' || c = '\u2029'

/-- A space or a tab. -/
def isSpace (c : Char) : Bool := c = ' ' || c = '\t'

/-- The mark that may begin a text; it takes no column. -/
def byteOrderMark : Char := '\uFEFF'

/-- A letter, digit, `-` or `_`. -/
def isNameChar (c : Char) : Bool := c.isAlphanum || c = '-' || c = '_'

/-- A hexadecimal digit. -/
def isHexDigit (c : Char) : Bool :=
  c.isDigit || ('a' ≤ c && c ≤ 'f') || ('A' ≤ c && c ≤ 'F')

/-- The value of a hexadecimal digit. -/
def hexValue (c : Char) : Nat :=
  if c.isDigit then c.toNat - '0'.toNat
  else if 'a' ≤ c then c.toNat - 'a'.toNat + 10
  else c.toNat - 'A'.toNat + 10

/-- The number that digits of a base spell. -/
def valueIn (base : Nat) (digits : List Char) : Nat :=
  digits.foldl (fun n c => base * n + hexValue c) 0

namespace Cursor

/-- The start of a text. -/
def ofText (cs : List Char) : Cursor := ⟨cs, 0, 0, 0⟩

/-- One character further. -/
def step (c : Cursor) : Cursor :=
  match c.rest with
  | [] => c
  | ch :: rest =>
    if isBreak ch then ⟨rest, c.index + 1, c.line + 1, 0⟩
    else ⟨rest, c.index + 1, c.line, if ch = byteOrderMark then c.column else c.column + 1⟩

/-- Some characters further. -/
def advance : Nat → Cursor → Cursor
  | 0, c => c
  | n + 1, c => advance n c.step

/-- The longest run of characters of a class, and the place after it. -/
def takeWhile (p : Char → Bool) (c : Cursor) : List Char × Cursor :=
  let run := c.rest.takeWhile p
  (run, c.advance run.length)

/-- The place after a run of characters of a class. -/
def skipWhile (p : Char → Bool) (c : Cursor) : Cursor := (c.takeWhile p).2

/-- A line break, as it counts in a text, and the place after it; nothing where
    there is none. -/
def takeBreak (c : Cursor) : List Char × Cursor :=
  match c.rest with
  | [] => ([], c)
  | ch :: _ =>
    if ch = '\n' || ch = '\x85' then (['\n'], c.step)
    else if isBreak ch then ([ch], c.step)
    else ([], c)

/-- The next character is this one. -/
def at? (c : Cursor) (ch : Char) : Bool := c.rest.head? = some ch

/-- A word ends before the `n`th character from here. -/
def wordEndsAt (c : Cursor) (n : Nat) : Bool :=
  match c.rest[n]? with
  | none => true
  | some ch => isSpace ch || isBreak ch

/-- The line ends here. -/
def atLineEnd (c : Cursor) : Bool :=
  match c.rest with
  | [] => true
  | ch :: _ => isBreak ch

/-- The line ends here, or a space follows. -/
def atGap (c : Cursor) : Bool := c.atLineEnd || c.at? ' '

/-- A mark of three characters, `---` or `...`, stands here. -/
def atMark (c : Cursor) (mark : Char) : Bool :=
  c.rest.take 3 = [mark, mark, mark] && c.wordEndsAt 3

/-- A document begins or ends here. -/
def atDocumentMark (c : Cursor) : Bool := c.atMark '-' || c.atMark '.'

/-- Past a comment, if there is one. -/
def skipComment (c : Cursor) : Cursor :=
  if c.at? '#' then c.skipWhile (!isBreak ·) else c

/-- Past the rest of a line that holds no more than spaces and a comment. -/
def finishLine? (c : Cursor) : Option Cursor :=
  let c := (c.skipWhile (· = ' ')).skipComment
  if c.atLineEnd then some c.takeBreak.2 else none

/-- How many steps are enough to read the rest. -/
def room (c : Cursor) : Nat := c.rest.length + 1

end Cursor

end Rulebook.Yaml

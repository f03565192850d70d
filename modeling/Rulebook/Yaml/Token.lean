/-
  Tokens — a YAML text cut into its marks, names and scalars, with the beginnings
  and ends of indented collections made explicit.

  * `Token` lists the tokens;
  * `Scanner` is a place in a text with what is known of its indentation and of
    the tokens that may still turn out to begin a key;
  * `tokenize?` gives the tokens of a text.

  Whether a token begins a key is known only when its `:` is reached. Such a
  token is preceded by an open slot, which is filled then.
-/
import Rulebook.Yaml.Scalar

namespace Rulebook.Yaml

open Cursor

/-! ## Tokens -/

/-- What a YAML text consists of. -/
inductive Token where
  /-- The version of YAML, by its first number. -/
  | version (major : Nat)
  /-- A handle for the beginnings of tags. -/
  | handle (name start : String)
  /-- A directive without a meaning. -/
  | otherDirective
  | documentStart
  | documentEnd
  | blockSequenceStart
  | blockMappingStart
  | blockEnd
  | flowSequenceStart
  | flowSequenceEnd
  | flowMappingStart
  | flowMappingEnd
  | blockEntry
  | flowEntry
  | key
  | value
  | alias (name : String)
  | anchor (name : String)
  /-- A tag, in full or after a handle. -/
  | tag (handle : Option String) (suffix : String)
  | scalar (text : String) (plain : Bool)
  deriving DecidableEq

/-- A token, or a place where the tokens that begin a key may be put. -/
inductive Slot where
  | token (t : Token)
  | open_
  /-- A key begins here. -/
  | key
  /-- A key begins here, and with it a mapping. -/
  | firstKey
  deriving DecidableEq

/-- The tokens of a slot. -/
def Slot.tokens : Slot → List Token
  | token t => [t]
  | open_ => []
  | key => [.key]
  | firstKey => [.blockMappingStart, .key]

/-! ## Scanners -/

/-- A token that may begin a key. -/
structure PossibleKey where
  /-- How many brackets are open around it. -/
  depth : Nat
  /-- The place of its slot. -/
  slot : Nat
  /-- A `:` must follow. -/
  required : Bool
  index : Nat
  line : Nat
  column : Nat

/-- What is known while a text is read. -/
structure Scanner where
  cursor : Cursor
  /-- How many brackets are open. -/
  depth : Nat
  /-- The column of the innermost collection; -1 outside all. -/
  indent : Int
  /-- The columns of the collections around it. -/
  outer : List Int
  /-- A key may begin here. -/
  keyAllowed : Bool
  possibleKeys : List PossibleKey
  slots : Array Slot

/-- The farthest that the `:` of a key may stand from where the key begins. -/
def longestKey : Nat := 1024

namespace Scanner

/-- The start of a text. -/
def ofText (cs : List Char) : Scanner := ⟨.ofText cs, 0, -1, [], true, [], #[]⟩

/-- Adds a token. -/
def emit (s : Scanner) (t : Token) : Scanner := { s with slots := s.slots.push (.token t) }

/-- Adds a token for the next characters. -/
def emitMark (s : Scanner) (length : Nat) (t : Token) : Scanner :=
  ({ s with cursor := s.cursor.advance length } : Scanner).emit t

/-- Allows or forbids a key. -/
def allowKey (s : Scanner) (b : Bool) : Scanner := { s with keyAllowed := b }

/-! ### Keys -/

/-- Forgets the tokens that can no longer begin a key; none of them may be
    required to. -/
def dropStale (s : Scanner) : Option Scanner :=
  let c := s.cursor
  let isStale (k : PossibleKey) : Bool := k.line ≠ c.line || longestKey < c.index - k.index
  let (stale, fresh) := s.possibleKeys.partition isStale
  if stale.any (·.required) then none else some { s with possibleKeys := fresh }

/-- Forgets the token that may begin a key within the innermost brackets. -/
def dropKey (s : Scanner) : Option Scanner :=
  let (here, others) := s.possibleKeys.partition (·.depth = s.depth)
  if here.any (·.required) then none else some { s with possibleKeys := others }

/-- Notes that the next token may begin a key. -/
def saveKey (s : Scanner) : Option Scanner :=
  if s.keyAllowed then do
    let s ← s.dropKey
    let c := s.cursor
    let required := s.depth = 0 && s.indent = c.column
    let k : PossibleKey := ⟨s.depth, s.slots.size, required, c.index, c.line, c.column⟩
    return { s with possibleKeys := k :: s.possibleKeys, slots := s.slots.push .open_ }
  else return s

/-! ### Indentation -/

/-- Ends the collections that are indented deeper than a column. -/
def unwindTo (column : Int) : List Int → Scanner → Scanner
  | [], s => s
  | around :: outer, s =>
    if column < s.indent then
      unwindTo column outer (({ s with indent := around, outer } : Scanner).emit .blockEnd)
    else s

/-- Ends the collections that are indented deeper than a column; brackets do not
    end so. -/
def unwind (s : Scanner) (column : Int) : Scanner :=
  if s.depth = 0 then unwindTo column s.outer s else s

/-- Begins a collection at a column, unless one has begun there. -/
def beginAt (s : Scanner) (column : Int) (t : Token) : Scanner :=
  if s.depth = 0 ∧ s.indent < column then
    ({ s with outer := s.indent :: s.outer, indent := column } : Scanner).emit t
  else s

/-- Outside brackets, a mark of a collection may stand only where a key may. -/
def checkAllowed (s : Scanner) : Option Scanner :=
  if s.depth = 0 ∧ !s.keyAllowed then none else some s

/-! ### Spaces -/

/-- Past spaces, comments and line breaks. -/
def skipGaps : Nat → Scanner → Scanner
  | 0, s => s
  | n + 1, s =>
    match ((s.cursor.skipWhile (· = ' ')).skipComment).takeBreak with
    | ([], c) => { s with cursor := c }
    | (_, c) => skipGaps n { s with cursor := c, keyAllowed := s.keyAllowed || s.depth = 0 }

/-- To the next token. -/
def toNextToken (s : Scanner) : Scanner :=
  let c := s.cursor
  let c := if c.index = 0 ∧ c.at? byteOrderMark then c.step else c
  skipGaps c.room { s with cursor := c }

/-! ### Marks -/

/-- Ends all collections and forgets all keys before a mark for documents. -/
def closeDocument (s : Scanner) : Option Scanner := do
  return (← (s.unwind (-1)).dropKey).allowKey false

/-- A bracket that opens a collection. -/
def openFlow (s : Scanner) (t : Token) : Option Scanner := do
  let s ← s.saveKey
  return ({ s with depth := s.depth + 1 } : Scanner).allowKey true |>.emitMark 1 t

/-- A bracket that closes a collection. -/
def closeFlow (s : Scanner) (t : Token) : Option Scanner := do
  let s ← s.dropKey
  match s.depth with
  | 0 => none
  | depth + 1 => return ({ s with depth } : Scanner).allowKey false |>.emitMark 1 t

/-- A comma within brackets. -/
def flowEntry (s : Scanner) : Option Scanner := do
  return (← (s.allowKey true).dropKey).emitMark 1 .flowEntry

/-- A dash before an item. -/
def blockEntry (s : Scanner) : Option Scanner := do
  let s ← s.checkAllowed
  let s := s.beginAt s.cursor.column .blockSequenceStart
  return (← (s.allowKey true).dropKey).emitMark 1 .blockEntry

/-- A question mark before a key. -/
def explicitKey (s : Scanner) : Option Scanner := do
  let s ← s.checkAllowed
  let s := s.beginAt s.cursor.column .blockMappingStart
  return (← (s.allowKey (s.depth = 0)).dropKey).emitMark 1 .key

/-- A colon: the possible key, if there is one, is a key. -/
def valueMark (s : Scanner) : Option Scanner :=
  match s.possibleKeys.find? (·.depth = s.depth) with
  | some k =>
    let first := s.depth = 0 && s.indent < k.column
    let s := { s with
      possibleKeys := s.possibleKeys.filter (·.depth ≠ s.depth)
      slots := s.slots.setIfInBounds k.slot (if first then .firstKey else .key) }
    let s := if first then { s with outer := s.indent :: s.outer, indent := k.column } else s
    some ((s.allowKey false).emitMark 1 .value)
  | none => do
    let s ← s.checkAllowed
    let s := s.beginAt s.cursor.column .blockMappingStart
    return (← (s.allowKey (s.depth = 0)).dropKey).emitMark 1 .value

/-! ### Names, tags and directives -/

/-- A name at the beginning of a place. -/
def name? (c : Cursor) : Option (String × Cursor) :=
  match c.takeWhile isNameChar with
  | ([], _) => none
  | (cs, c) => some (String.ofList cs, c)

/-- A character that may follow a name. -/
def mayFollowName (c : Char) : Bool :=
  isSpace c || isBreak c || ['?', ':', ',', ']', '}', '%', '@', '\x60'].contains c

/-- An anchor or an alias. -/
def reference (s : Scanner) (t : String → Token) : Option Scanner := do
  let s ← s.saveKey
  let (name, c) ← name? s.cursor.step
  if c.rest.head?.all mayFollowName then
    return ({ s with cursor := c } : Scanner).allowKey false |>.emit (t name)
  else none

/-- A character of a tag, other than `%`. -/
def isTagChar (c : Char) : Bool := c.isAlphanum || "-;/?:@&=+$,_.!~*'()[]".toList.contains c

/-- The bytes that escapes name. -/
def escapedBytes? : List Char → Option (List UInt8 × List Char)
  | '%' :: a :: b :: rest =>
    if isHexDigit a && isHexDigit b then do
      let (bytes, rest) ← escapedBytes? rest
      return (UInt8.ofNat (valueIn 16 [a, b]) :: bytes, rest)
    else none
  | '%' :: _ => none
  | rest => some ([], rest)

/-- The characters that escapes at the beginning of a text name. -/
def escapedChars? (cs : List Char) : Option (List Char × Nat) := do
  let (bytes, rest) ← escapedBytes? cs
  let text ← String.fromUTF8? ⟨bytes.toArray⟩
  return (text.toList, cs.length - rest.length)

/-- The characters of a tag. -/
def tagChars? : Nat → Cursor → Option (List Char × Cursor)
  | 0, _ => none
  | n + 1, c => do
    let (run, c) := c.takeWhile isTagChar
    if c.at? '%' then
      let (piece, length) ← escapedChars? c.rest
      let (more, c) ← tagChars? n (c.advance length)
      return (run ++ piece ++ more, c)
    else return (run, c)

/-- The text of a tag or of the beginning of one; it is not empty. -/
def tagText? (c : Cursor) : Option (String × Cursor) := do
  if c.at? '%' || c.rest.head?.any isTagChar then
    let (cs, c) ← tagChars? c.room c
    return (String.ofList cs, c)
  else none

/-- The handle of a tag: `!`, or a name between two of them. -/
def handle? (c : Cursor) : Option (String × Cursor) :=
  if !c.at? '!' then none
  else if c.step.at? ' ' then some ("!", c.step)
  else
    let (cs, after) := c.step.takeWhile isNameChar
    if after.at? '!' then some (String.ofList ('!' :: (cs ++ ['!'])), after.step) else none

/-- The tag that begins here. -/
def tag? (c : Cursor) : Option (Token × Cursor) := do
  let (token, c) ←
    if c.step.at? '<' then do
      let (suffix, c) ← tagText? (c.advance 2)
      if c.at? '>' then some (Token.tag none suffix, c.step) else none
    else if c.wordEndsAt 1 then some (Token.tag none "!", c.step)
    else do
      let word := c.step.rest.takeWhile fun ch => ch ≠ ' ' && !isBreak ch
      let (handle, c) ← if word.contains '!' then handle? c else some ("!", c.step)
      let (suffix, c) ← tagText? c
      some (Token.tag (some handle) suffix, c)
  if c.atGap then return (token, c) else none

/-- A tag. -/
def tag (s : Scanner) : Option Scanner := do
  let s ← s.saveKey
  let (token, c) ← tag? s.cursor
  return ({ s with cursor := c } : Scanner).allowKey false |>.emit token

/-- The first number of a version of two numbers with a point between. -/
def version? (c : Cursor) : Option (Nat × Cursor) := do
  let (major, c) := (c.skipWhile (· = ' ')).takeWhile Char.isDigit
  if major.isEmpty || !c.at? '.' then none
  let (minor, c) := c.step.takeWhile Char.isDigit
  if minor.isEmpty || !c.atGap then none
  return (valueIn 10 major, c)

/-- A handle and what it stands for. -/
def handleDefinition? (c : Cursor) : Option (String × String × Cursor) := do
  let (name, c) ← handle? (c.skipWhile (· = ' '))
  if !c.at? ' ' then none
  let (start, c) ← tagText? (c.skipWhile (· = ' '))
  if !c.atGap then none
  return (name, start, c)

/-- A directive. -/
def directive (s : Scanner) : Option Scanner := do
  let s ← s.closeDocument
  let (name, c) ← name? s.cursor.step
  if !c.atGap then none
  let (token, c) ←
    if name = "YAML" then do
      let (major, c) ← version? c
      some (Token.version major, c)
    else if name = "TAG" then do
      let (handle, start, c) ← handleDefinition? c
      some (Token.handle handle start, c)
    else some (Token.otherDirective, c.skipWhile (!isBreak ·))
  return ({ s with cursor := ← c.finishLine? } : Scanner).emit token

/-- The beginning or the end of a document. -/
def documentMark (s : Scanner) (t : Token) : Option Scanner := do
  return (← s.closeDocument).emitMark 3 t

/-! ### Scalars -/

/-- A scalar in quotes. -/
def quoted (s : Scanner) : Option Scanner := do
  let s ← s.saveKey
  let (text, c) ← quotedScalar? s.cursor
  return ({ s with cursor := c } : Scanner).allowKey false |>.emit
    (.scalar (String.ofList text) false)

/-- A scalar of indented lines. -/
def block (s : Scanner) : Option Scanner := do
  let s ← (s.allowKey true).dropKey
  let (text, c) ← blockScalar? (max (s.indent + 1) 1).toNat s.cursor
  return ({ s with cursor := c } : Scanner).emit (.scalar (String.ofList text) false)

/-- A scalar without quotes. -/
def plain (s : Scanner) : Option Scanner := do
  let s ← s.saveKey
  let read := plainScalar (s.depth ≠ 0) (s.indent + 1) s.cursor
  return ({ s with cursor := read.cursor } : Scanner).allowKey read.broken |>.emit
    (.scalar (String.ofList read.text) true)

/-- A character that no plain scalar begins with, save that some may before a
    word. -/
def isIndicator (c : Char) : Bool :=
  isSpace c || isBreak c || "-?:,[]{}#&*!|>'\"%@\x60".toList.contains c

/-- A plain scalar begins here. -/
def beginsPlain (s : Scanner) (ch : Char) : Bool :=
  !isIndicator ch
    || (!s.cursor.wordEndsAt 1 && (ch = '-' || (s.depth = 0 && (ch = '?' || ch = ':'))))

/-! ### Texts -/

/-- Reads the token that begins with a character. -/
def readToken (s : Scanner) (ch : Char) : Option Scanner :=
  let c := s.cursor
  let inFlow : Bool := s.depth ≠ 0
  if c.column = 0 ∧ ch = '%' then s.directive
  else if c.column = 0 ∧ c.atMark '-' then s.documentMark .documentStart
  else if c.column = 0 ∧ c.atMark '.' then s.documentMark .documentEnd
  else if ch = '[' then s.openFlow .flowSequenceStart
  else if ch = '{' then s.openFlow .flowMappingStart
  else if ch = ']' then s.closeFlow .flowSequenceEnd
  else if ch = '}' then s.closeFlow .flowMappingEnd
  else if ch = ',' then s.flowEntry
  else if ch = '-' ∧ c.wordEndsAt 1 then s.blockEntry
  else if ch = '?' ∧ (inFlow || c.wordEndsAt 1) then s.explicitKey
  else if ch = ':' ∧ (inFlow || c.wordEndsAt 1) then s.valueMark
  else if ch = '*' then s.reference .alias
  else if ch = '&' then s.reference .anchor
  else if ch = '!' then s.tag
  else if (ch = '|' ∨ ch = '>') ∧ !inFlow then s.block
  else if ch = '\'' ∨ ch = '"' then s.quoted
  else if s.beginsPlain ch then s.plain
  else none

/-- Reads a text to its end. -/
def readAll : Nat → Scanner → Option Scanner
  | 0, _ => none
  | n + 1, s => do
    let s ← s.toNextToken.dropStale
    match s.cursor.rest with
    | [] => (s.unwind (-1)).dropKey
    | ch :: _ => readAll n (← (s.unwind s.cursor.column).readToken ch)

end Scanner

/-- The tokens of a text. -/
def tokenize? (cs : List Char) : Option (List Token) := do
  let s ← Scanner.readAll (cs.length + 1) (.ofText cs)
  return s.slots.toList.flatMap Slot.tokens

end Rulebook.Yaml

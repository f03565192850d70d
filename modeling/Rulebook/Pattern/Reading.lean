/-
  Reading patterns, step by step — the pieces of a pattern's text, what a reader
  has learnt so far, and the steps it is made of.

  * `PatternFault` is what can be wrong: a malformed pattern with the reason and
    the offset, or one of the faults that are no matter of form;
  * `pieces` cuts a text into single characters and characters taken together
    with a backslash before them;
  * `PatternReader` is a step over `PatternReading`, which knows the groups
    opened and closed so far.
-/
import Rulebook.Pattern
import Rulebook.Text.Quoted
import Rulebook.Text.Place

namespace Rulebook

open Text

/-! ## Faults -/

/-- What is wrong with a pattern. -/
inductive PatternFault where
  | malformed (reason : String) (position : Option Nat)
  /-- A count of repetitions is beyond what can be counted. -/
  | repetitionTooLarge
  /-- An escape names a code point beyond what a machine integer holds. -/
  | codeTooLarge
  /-- The pattern as a whole asks for two classes of letters at once. -/
  | conflictingClasses
  deriving DecidableEq

/-! ## Pieces -/

/-- A piece of a pattern's text. -/
inductive Piece where
  | plain (c : Char)
  | escaped (c : Char)
  /-- A backslash at the end of the text. -/
  | dangling
  deriving DecidableEq, Repr

/-- The characters of a piece. -/
def Piece.chars : Piece → List Char
  | plain c => [c]
  | escaped c => ['\\', c]
  | dangling => ['\\']

/-- A text cut into pieces. -/
def pieces : List Char → List Piece
  | [] => []
  | '\\' :: rest => match rest with
    | c :: rest => .escaped c :: pieces rest
    | [] => [.dangling]
  | c :: rest => .plain c :: pieces rest

/-! ## Flags -/

/-- The flags of a pattern. -/
inductive Flag where
  | ignoreCase
  | locale
  | multiline
  | dotAll
  | verbose
  | ascii
  /-- Repetitions are refused. -/
  | single
  | unicode
  deriving DecidableEq, Repr

namespace Flag

/-- The flag that a letter stands for. -/
def ofLetter? : Char → Option Flag
  | 'i' => some ignoreCase
  | 'L' => some locale
  | 'm' => some multiline
  | 's' => some dotAll
  | 'x' => some verbose
  | 'a' => some ascii
  | 't' => some single
  | 'u' => some unicode
  | _ => none

/-- The flags that choose a class of letters, of which only one can hold. -/
def choosesClass (f : Flag) : Bool := f = ascii ∨ f = locale ∨ f = unicode

end Flag

/-- Flags in force, with some turned on and some turned off. -/
def combineFlags (flags on off : List Flag) : List Flag :=
  let kept := if on.any (·.choosesClass) then flags.filter (!·.choosesClass) else flags
  (kept ++ on).filter fun f => !off.contains f

/-- How letters are compared under flags. -/
def foldingOf (flags : List Flag) : Folding :=
  if !flags.contains .ignoreCase then .exact
  else if flags.contains .ascii then .ascii
  else .full

/-! ## The state of reading -/

/-- A capturing group; its width is known once it is closed. -/
structure GroupInfo where
  name : Option String
  width : Option Width

/-- What is left to read, and what has been learnt. -/
structure PatternReading where
  rest : List Piece
  offset : Nat
  /-- The groups opened so far; the first has index one. -/
  groups : List GroupInfo
  /-- The number of groups, counting the whole match, when the outermost
      look-behind being read began. -/
  lookBehind : Option Nat
  /-- The groups that conditions name by index, with the offset of each. -/
  conditions : List (Nat × Nat)
  /-- The flags of the whole pattern. -/
  flags : List Flag

/-- A step of reading. -/
abbrev PatternReader := StateT PatternReading (Except PatternFault)

namespace PatternReader

/-- Refuses the pattern, at an offset. -/
def failAt {α : Type} (reason : String) (position : Nat) : PatternReader α :=
  throw (.malformed reason (some position))

/-- Refuses the pattern, some characters before the next piece. -/
def failBack {α : Type} (reason : String) (back : Nat) : PatternReader α := do
  failAt reason ((← get).offset - back)

/-- Refuses the pattern at the next piece. -/
def fail {α : Type} (reason : String) : PatternReader α := failBack reason 0

/-- The next piece. -/
def peek : PatternReader (Option Piece) := do return (← get).rest.head?

/-- Refuses a dangling backslash as soon as it is next. -/
def checkNext : PatternReader Unit := do
  if (← peek) = some .dangling then fail "bad escape (end of pattern)"

/-- Takes the next piece. -/
def take : PatternReader (Option Piece) := do
  let r ← get
  match r.rest with
  | [] => return none
  | p :: rest =>
    set { r with rest, offset := r.offset + p.chars.length }
    checkNext
    return some p

/-- Takes the next piece if it is a given character. -/
def accept (c : Char) : PatternReader Bool := do
  if (← peek) = some (.plain c) then
    let _ ← take
    return true
  else return false

/-- Takes at most `n` characters of a class. -/
def takeUpTo (p : Char → Bool) : Nat → PatternReader (List Char)
  | 0 => return []
  | n + 1 => do
    match ← peek with
    | some (.plain c) =>
      if p c then
        let _ ← take
        return c :: (← takeUpTo p n)
      else return []
    | _ => return []

/-- Takes all characters of a class that come next. -/
def takeAll (p : Char → Bool) : PatternReader (List Char) := do
  takeUpTo p (← get).rest.length

/-- Takes a name up to a closing character, over at most `n` pieces. -/
def takeName (closing : Char) (what : String) : Nat → List Char → PatternReader (List Char)
  | n, found => do
    match ← take, n with
    | none, _ | _, 0 =>
      if found.isEmpty then fail ("missing " ++ what)
      else failBack s!"missing {closing}, unterminated name" found.length
    | some p, n + 1 =>
      if p = .plain closing then
        if found.isEmpty then failBack ("missing " ++ what) 1 else return found
      else takeName closing what n (found ++ p.chars)

/-- Takes a name up to a closing character. -/
def name (closing : Char) (what : String) : PatternReader String := do
  return String.ofList (← takeName closing what ((← get).rest.length + 1) [])

/-! ## Groups -/

/-- The number of groups, counting the whole match. -/
def groupCount : PatternReader Nat := do return (← get).groups.length + 1

/-- The width of a closed group. -/
def closedWidth? (index : Nat) : PatternReader (Option Width) := do
  let groups := (← get).groups
  return if index = 0 then none else groups[index - 1]?.bind fun g => g.width

/-- The index of the group with a name. -/
def indexOf? (name : String) : PatternReader (Option Nat) := do
  return ((← get).groups.findIdx? (·.name == some name)).map (· + 1)

/-- Opens a group and gives its index. -/
def openGroup (name : Option String) : PatternReader Nat := do
  let index ← groupCount
  if let some n := name then
    if let some earlier ← indexOf? n then
      failBack s!"redefinition of group name {quoted n} as group {index}; was group {earlier}"
        (n.length + 1)
  modify fun r => { r with groups := r.groups ++ [⟨name, none⟩] }
  return index

/-- Closes a group. -/
def closeGroup (index : Nat) (w : Width) : PatternReader Unit :=
  modify fun r => { r with groups := r.groups.modify (index - 1) fun g => { g with width := some w } }

/-- Refuses, within a look-behind, a group that is open or was opened there. -/
def checkLookBehind (index : Nat) : PatternReader Unit := do
  if let some outer := (← get).lookBehind then
    if (← closedWidth? index).isNone then fail "cannot refer to an open group"
    if outer ≤ index then
      fail "cannot refer to group defined in the same lookbehind subpattern"

/-- A reference to a group that a piece of text `length` long names. -/
def reference (flags : List Flag) (index length : Nat) : PatternReader Pattern := do
  match ← closedWidth? index with
  | none => failBack "cannot refer to an open group" length
  | some w =>
    checkLookBehind index
    return .again (foldingOf flags) index w

end PatternReader

/-- What is said of a malformed pattern: the reason, and the place in the text. -/
def malformedText (text reason : String) : Option Nat → String
  | none => reason
  | some position =>
    let place := locate text position
    s!"{reason} at position {position}" ++
      if text.contains '\n' then s!" (line {place.line}, column {place.column})" else ""

end Rulebook

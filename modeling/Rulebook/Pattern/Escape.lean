/-
  Escapes and sets of patterns — what a backslash and a character stand for,
  within a set and outside.

  * `setEscape` gives a member of a set, `escape` a pattern;
  * `charSet` reads a set between brackets.
-/
import Rulebook.Pattern.Reading

namespace Rulebook

open Text

namespace PatternReader

/-! ## Escapes -/

/-- A digit of base sixteen. -/
def isHexDigit (c : Char) : Bool :=
  c.isDigit || ('a' ≤ c && c ≤ 'f') || ('A' ≤ c && c ≤ 'F')

/-- A digit of base eight. -/
def isOctalDigit (c : Char) : Bool := '0' ≤ c && c ≤ '7'

/-- The value of a digit of base sixteen. -/
def hexDigitValue (c : Char) : Nat :=
  if c.isDigit then c.toNat - 0x30 else c.toLower.toNat - 0x61 + 10

/-- The number that digits of a base spell. -/
def baseValue (base : Nat) (cs : List Char) : Nat :=
  cs.foldl (fun n c => base * n + hexDigitValue c) 0

/-- The characters of an escape. -/
def escapeText (cs : List Char) : String := String.ofList ('\\' :: cs)

/-- A code point spelled by exactly `n` digits of base sixteen after a letter. -/
def hexEscape (letter : Char) (n : Nat) : PatternReader Nat := do
  let ds ← takeUpTo isHexDigit n
  if ds.length < n then
    failBack ("incomplete escape " ++ escapeText (letter :: ds)) (2 + ds.length)
  let code := baseValue 16 ds
  if 1 <<< 31 ≤ code then throw .codeTooLarge
  if 0x110000 ≤ code then failBack ("bad escape " ++ escapeText (letter :: ds)) (2 + n)
  return code

/-- A code point spelled by digits of base eight. -/
def octalEscape (ds : List Char) : PatternReader Nat := do
  let code := baseValue 8 ds
  if 0o377 < code then
    failBack ("octal escape value " ++ escapeText ds ++ " outside of range 0-0o377")
      (1 + ds.length)
  return code

/-- A character spelled by its name; no names are known. -/
def namedEscape : PatternReader Nat := do
  if !(← accept '{') then fail "missing \x7b"
  let n ← name '}' "character name"
  failBack s!"undefined character name {quoted n}" (n.length + 4)

/-- The escapes that stand for one character, `\b` aside. -/
def controlEscape? : Char → Option Nat
  | 'a' => some 7
  | 'f' => some 12
  | 'n' => some 10
  | 'r' => some 13
  | 't' => some 9
  | 'v' => some 11
  | '\\' => some 0x5C
  | _ => none

/-- The escapes that stand for a class of characters. -/
def classEscape? (flags : List Flag) (c : Char) : Option SetItem :=
  let ascii := flags.contains .ascii
  match c with
  | 'd' => some (.named .digit false ascii)
  | 'D' => some (.named .digit true ascii)
  | 's' => some (.named .space false ascii)
  | 'S' => some (.named .space true ascii)
  | 'w' => some (.named .word false ascii)
  | 'W' => some (.named .word true ascii)
  | _ => none

/-- The code point of an escape with a letter or sign that has no other sense. -/
def codeEscape (c : Char) : PatternReader Nat := do
  if c = 'x' then hexEscape c 2
  else if c = 'u' then hexEscape c 4
  else if c = 'U' then hexEscape c 8
  else if c = 'N' then namedEscape
  else if c.isAlphanum then failBack ("bad escape " ++ escapeText [c]) 2
  else return c.toNat

/-- A member of a set that an escape stands for. -/
def setEscape (flags : List Flag) (c : Char) : PatternReader SetItem := do
  if c = 'b' then return .code 8
  else if let some n := controlEscape? c then return .code n
  else if let some item := classEscape? flags c then return item
  else if isOctalDigit c then
    return .code (← octalEscape (c :: (← takeUpTo isOctalDigit 2)))
  else return .code (← codeEscape c)

/-- The positions that an escape stands for. -/
def anchorEscape? (flags : List Flag) : Char → Option Anchor
  | 'A' => some .textStart
  | 'Z' => some .textEnd
  | 'b' => some (.wordBoundary false (flags.contains .ascii))
  | 'B' => some (.wordBoundary true (flags.contains .ascii))
  | _ => none

/-- A single character as a pattern. -/
def letter (flags : List Flag) (n : Nat) : Pattern := .one (.letter (foldingOf flags) n)

/-- An escape that starts with a digit other than zero: three octal digits are a
    character, any other one or two digits the index of a group. -/
def digitEscape (flags : List Flag) (c : Char) : PatternReader Pattern := do
  let second ← takeUpTo Char.isDigit 1
  let ds := c :: second
  let third ← if ds.length = 2 ∧ ds.all isOctalDigit then takeUpTo isOctalDigit 1 else pure []
  if third.isEmpty then
    let index := baseValue 10 ds
    if index < (← groupCount) then reference flags index (1 + ds.length)
    else failBack s!"invalid group reference {index}" ds.length
  else return letter flags (← octalEscape (ds ++ third))

/-- The pattern that an escape stands for. -/
def escape (flags : List Flag) (c : Char) : PatternReader Pattern := do
  if let some condition := anchorEscape? flags c then return .anchor condition
  else if let some item := classEscape? flags c then
    return .one (.set (foldingOf flags) false [item])
  else if let some n := controlEscape? c then return letter flags n
  else if c = '0' then
    return letter flags (baseValue 8 (← takeUpTo isOctalDigit 2))
  else if c.isDigit then digitEscape flags c
  else return letter flags (← codeEscape c)

/-! ## Sets -/

/-- The members of a set up to its closing bracket, over at most `n` members;
    `start` is the offset of the set. -/
def setItems (flags : List Flag) (start : Nat) :
    Nat → List SetItem → PatternReader (List SetItem)
  | 0, _ => failAt "unterminated character set" start
  | n + 1, items => do
    let member (p : Piece) : PatternReader SetItem := match p with
      | .plain c => return .code c.toNat
      | .escaped c => setEscape flags c
      | .dangling => return .code 0x5C
    match ← take with
    | none => failAt "unterminated character set" start
    | some this =>
      if this = .plain ']' && !items.isEmpty then return items
      let first ← member this
      if !(← accept '-') then setItems flags start n (items ++ [first])
      else match ← take with
        | none => failAt "unterminated character set" start
        | some (.plain ']') => return items ++ [first, .code '-'.toNat]
        | some that =>
          let last ← member that
          let text := String.ofList (this.chars ++ '-' :: that.chars)
          let wrong : PatternReader (List SetItem) :=
            failBack ("bad character range " ++ text) text.length
          match first, last with
          | .code a, .code b =>
            if b < a then wrong else setItems flags start n (items ++ [.range a b])
          | _, _ => wrong

/-- A set, after its opening bracket. -/
def charSet (flags : List Flag) : PatternReader Pattern := do
  let start := (← get).offset - 1
  let negated ← accept '^'
  let items ← setItems flags start ((← get).rest.length + 1) []
  return .one (.set (foldingOf flags) negated items)

end PatternReader

end Rulebook

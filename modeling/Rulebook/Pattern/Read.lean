/-
  Reading patterns — from the text of a regular expression to its tree.

  * `quantified` applies a quantifier, `opening` reads what a parenthesis opens;
  * `alternatives` and `items` read the parts of a pattern, `whole` all of it;
  * `Pattern.read` reads a text.
-/
import Rulebook.Pattern.Escape
import Rulebook.Number.Integer

namespace Rulebook

open Text Number

namespace PatternReader

/-! ## Quantifiers -/

/-- The count from which on repetitions cannot be counted. -/
def repetitionLimit : Nat := (1 <<< 32) - 1

/-- A bound on the number of passes. -/
def passes? (ds : List Char) : PatternReader (Option Nat) := do
  if ds.isEmpty then return none
  let n := baseValue 10 ds
  if repetitionLimit ≤ n then throw .repetitionTooLarge
  return some n

/-- The bounds in braces, after the opening one; nothing is taken if the braces
    do not hold bounds. -/
def braces? : PatternReader (Option (Nat × Option Nat)) := do
  let before ← get
  if (← peek) = some (.plain '}') then return none
  let low ← takeAll Char.isDigit
  let high ← if ← accept ',' then takeAll Char.isDigit else pure low
  if !(← accept '}') then
    set before
    return none
  let least ← passes? low
  let most ← passes? high
  if let some m := most then
    if m < least.getD 0 then failAt "min repeat greater than max repeat" before.offset
  return some (least.getD 0, most)

/-- What a quantifier would apply to: whether it can be repeated. -/
inductive Repeatable where
  | yes
  | anchor
  | repeated
  deriving DecidableEq

/-- A part of a sequence. -/
structure PatternPart where
  pattern : Pattern
  repeatable : Repeatable

/-- The mark after a quantifier that says how it chooses. -/
def greed : PatternReader Greed := do
  if ← accept '?' then return .lazy
  if ← accept '+' then return .possessive
  return .greedy

/-- A quantifier with bounds applied to the last part; the quantifier starts at
    the offset `start`. -/
def quantified (start least : Nat) (most : Option Nat) (parts : List PatternPart) :
    PatternReader (List PatternPart) := do
  match parts with
  | [] => failAt "nothing to repeat" start
  | last :: before =>
    match last.repeatable with
    | .anchor => failAt "nothing to repeat" start
    | .repeated => failAt "multiple repeat" start
    | .yes =>
      return ⟨.repeated (← greed) least most last.pattern, .repeated⟩ :: before

/-! ## Flags and the openings of groups -/

/-- Says which piece stands where a flag should. -/
def failFlag {α : Type} (missing : String) (p : Piece) : PatternReader α :=
  match p with
  | .plain c =>
    failBack (if isWord c && !isDigit c && c ≠ '_' then "unknown flag" else missing) 1
  | p => failBack missing p.chars.length

/-- Flags to turn on, the first of them given, and the character after them. -/
def flagsOn : Nat → List Flag → Flag → PatternReader (List Flag × Char)
  | 0, _, _ => fail "missing -, : or )"
  | n + 1, on, flag => do
    if flag = .locale then
      fail "bad inline flags: cannot use 'L' flag with a str pattern"
    if flag.choosesClass && on.any (fun f => f.choosesClass && f ≠ flag) then
      fail "bad inline flags: flags 'a', 'u' and 'L' are incompatible"
    let on := on ++ [flag]
    match ← take with
    | none => fail "missing -, : or )"
    | some (.plain c) =>
      if c = ')' ∨ c = '-' ∨ c = ':' then return (on, c)
      match Flag.ofLetter? c with
      | some next => flagsOn n on next
      | none => failFlag "missing -, : or )" (.plain c)
    | some p => failFlag "missing -, : or )" p

/-- Flags to turn off, the first of them given, up to the colon. -/
def flagsOff : Nat → List Flag → Flag → PatternReader (List Flag)
  | 0, _, _ => fail "missing :"
  | n + 1, off, flag => do
    if flag.choosesClass then
      fail "bad inline flags: cannot turn off flags 'a', 'u' and 'L'"
    let off := off ++ [flag]
    match ← take with
    | none => fail "missing :"
    | some (.plain c) =>
      if c = ':' then return off
      match Flag.ofLetter? c with
      | some next => flagsOff n off next
      | none => failFlag "missing :" (.plain c)
    | some p => failFlag "missing :" p

/-- The flags after a minus. -/
def flagsAfterMinus : PatternReader (List Flag) := do
  match ← take with
  | none => fail "missing flag"
  | some (.plain c) => match Flag.ofLetter? c with
    | some flag => flagsOff ((← get).rest.length + 1) [] flag
    | none => failFlag "missing flag" (.plain c)
  | some p => failFlag "missing flag" p

/-- What an opening parenthesis opens. -/
inductive Opening where
  | comment
  /-- The flags of the whole pattern have changed. -/
  | flags
  | reference (p : Pattern)
  | capture (index : Nat)
  | plain (flags : List Flag)
  | atomic
  | look (behind negated : Bool)
  | conditional (index : Nat)

/-- Flags after a question mark, the first character of them given. -/
def flagOpening (flags : List Flag) (first : Option Flag) : PatternReader Opening := do
  let n := (← get).rest.length + 1
  let (on, closing) ← match first with
    | some flag => flagsOn n [] flag
    | none => pure ([], '-')
  if closing = ')' then
    modify fun r => { r with flags := r.flags ++ on }
    return .flags
  if on.contains .single then
    failBack "bad inline flags: cannot turn on global flag" 1
  let off ← if closing = '-' then flagsAfterMinus else pure []
  if off.contains .single then
    failBack "bad inline flags: cannot turn off global flag" 1
  if on.any off.contains then failBack "bad inline flags: flag turned on and off" 1
  return .plain (combineFlags flags on off)

/-- A name that a group can have: a letter or an underscore, then word characters. -/
def isGroupName : List Char → Bool
  | [] => false
  | c :: rest => isWord c && !isDigit c && rest.all isWord

/-- Refuses a name that no group can have. -/
def checkName (n : String) : PatternReader Unit := do
  if !isGroupName n.toList then
    failBack s!"bad character in group name {quoted n}" (n.length + 1)

/-- The index of a named group. -/
def namedIndex (n : String) : PatternReader Nat := do
  match ← indexOf? n with
  | some index => return index
  | none => failBack s!"unknown group name {quoted n}" (n.length + 1)

/-- A named group or a reference to one, after `?P`. -/
def namedOpening (flags : List Flag) : PatternReader Opening := do
  if ← accept '<' then
    let n ← name '>' "group name"
    checkName n
    return .capture (← openGroup (some n))
  else if ← accept '=' then
    let n ← name ')' "group name"
    checkName n
    return .reference (← reference flags (← namedIndex n) (n.length + 1))
  else match ← take with
    | none => fail "unexpected end of pattern"
    | some p =>
      failBack ("unknown extension ?P" ++ String.ofList p.chars) (p.chars.length + 2)

/-- The largest number of groups. -/
def groupLimit : Nat := (1 <<< 30) - 1

/-- The group that a condition names by index. -/
def conditionIndex (n : String) : PatternReader Nat := do
  match integer? n with
  | some (.ofNat index) =>
    if index = 0 then failBack "bad group number" (n.length + 1)
    if groupLimit ≤ index then failBack s!"invalid group reference {index}" (n.length + 1)
    let place := (← get).offset - n.length - 1
    modify fun r =>
      if r.conditions.any (·.1 == index) then r
      else { r with conditions := r.conditions ++ [(index, place)] }
    return index
  | _ => failBack s!"bad character in group name {quoted n}" (n.length + 1)

/-- A condition, after `?(`. -/
def conditionOpening : PatternReader Opening := do
  let n ← name ')' "group name"
  let index ← if isGroupName n.toList then namedIndex n else conditionIndex n
  checkLookBehind index
  return .conditional index

/-- A look-behind, after `?<`. -/
def behindOpening : PatternReader Opening := do
  match ← take with
  | none => fail "unexpected end of pattern"
  | some (.plain '=') => return .look true false
  | some (.plain '!') => return .look true true
  | some p => failBack ("unknown extension ?<" ++ String.ofList p.chars) (p.chars.length + 2)

/-- Takes a comment up to its closing parenthesis; `start` is the offset of the
    opening one. -/
def skipComment (start : Nat) : Nat → PatternReader Unit
  | 0 => failAt "missing ), unterminated comment" start
  | n + 1 => do
    match ← peek with
    | none => failAt "missing ), unterminated comment" start
    | some p =>
      let _ ← take
      if p = .plain ')' then return () else skipComment start n

/-- What the parenthesis at the offset `start`, already taken, opens. -/
def opening (flags : List Flag) (start : Nat) : PatternReader Opening := do
  if !(← accept '?') then return .capture (← openGroup none)
  match ← take with
  | none => fail "unexpected end of pattern"
  | some (.plain 'P') => namedOpening flags
  | some (.plain ':') => return .plain flags
  | some (.plain '#') =>
    skipComment start ((← get).rest.length + 1)
    return .comment
  | some (.plain '=') => return .look false false
  | some (.plain '!') => return .look false true
  | some (.plain '<') => behindOpening
  | some (.plain '(') => conditionOpening
  | some (.plain '>') => return .atomic
  | some (.plain '-') => flagOpening flags none
  | some p =>
    let flag := match p with | .plain c => Flag.ofLetter? c | _ => none
    if flag.isSome then flagOpening flags flag
    else failBack ("unknown extension ?" ++ String.ofList p.chars) (p.chars.length + 1)

/-! ## Whole patterns -/

/-- Takes the parenthesis that closes the one at `start`. -/
def closing (start : Nat) : PatternReader Unit := do
  if !(← accept ')') then failAt "missing ), unterminated subpattern" start

/-- The parts of a sequence, given last first, as one pattern. -/
def sequenceOf (parts : List PatternPart) : Pattern :=
  parts.foldl (fun p part => match p with
    | .empty => part.pattern
    | p => .sequence part.pattern p) .empty

/-- A character that is skipped in verbose patterns. -/
def isVerboseBlank (c : Char) : Bool := c = ' ' || ('\t' ≤ c && c ≤ '\r')

/-- Takes the rest of a line. -/
def skipLine : Nat → PatternReader Unit
  | 0 => return ()
  | n + 1 => do
    match ← take with
    | none | some (.plain '\n') => return ()
    | some _ => skipLine n

/-- A single character that is no part of a larger construct. -/
def plainPart (flags : List Flag) (c : Char) : PatternPart :=
  match c with
  | '.' => ⟨.one (.any (flags.contains .dotAll)), .yes⟩
  | '^' => ⟨.anchor (if flags.contains .multiline then .lineStart else .textStart), .anchor⟩
  | '$' => ⟨.anchor (if flags.contains .multiline then .lineEnd else .lastLineEnd), .anchor⟩
  | c => ⟨letter flags c.toNat, .yes⟩

/-- The bounds of a quantifier that a character begins. -/
def bounds? (c : Char) : PatternReader (Option (Nat × Option Nat)) := do
  match c with
  | '?' => return some (0, some 1)
  | '*' => return some (0, none)
  | '+' => return some (1, none)
  | '{' => braces?
  | _ => return none

mutual

/-- Alternatives, up to a closing parenthesis or the end. On top the flags of
    the whole pattern are in force. `fuel` bounds the depth of the reading. -/
def alternatives (fuel : Nat) (top : Bool) (flags : List Flag) : PatternReader Pattern :=
  match fuel with
  | 0 => fail "unexpected end of pattern"
  | fuel + 1 => do
    let first ← items fuel top flags []
    if !(← accept '|') then return first
    return .either first (← laterAlternatives fuel top flags)

/-- The alternatives after a bar. -/
def laterAlternatives (fuel : Nat) (top : Bool) (flags : List Flag) : PatternReader Pattern :=
  match fuel with
  | 0 => fail "unexpected end of pattern"
  | fuel + 1 => do
    let whole := (← get).flags
    let flags := if top then whole else flags
    let next ← items fuel false flags []
    if !(← accept '|') then return next
    return .either next (← laterAlternatives fuel top flags)

/-- The parts of a sequence after those already read, given last first. The
    flags of the whole pattern may stand only `first` of all. -/
def items (fuel : Nat) (first : Bool) (flags : List Flag) (parts : List PatternPart) :
    PatternReader Pattern :=
  match fuel with
  | 0 => fail "unexpected end of pattern"
  | fuel + 1 => do
    let start := (← get).offset
    match ← peek with
    | none | some (.plain '|') | some (.plain ')') => return sequenceOf parts
    | some .dangling => fail "bad escape (end of pattern)"
    | some (.escaped c) =>
      let _ ← take
      let p ← escape flags c
      let repeatable := match p with | .anchor _ => Repeatable.anchor | _ => .yes
      items fuel first flags (⟨p, repeatable⟩ :: parts)
    | some (.plain c) =>
      let _ ← take
      if flags.contains .verbose && isVerboseBlank c then items fuel first flags parts
      else if flags.contains .verbose && c = '#' then
        let left := (← get).rest.length
        skipLine (left + 1)
        items fuel first flags parts
      else if c = '[' then items fuel first flags (⟨← charSet flags, .yes⟩ :: parts)
      else if c = '(' then
        match ← opening flags start with
        | .comment => items fuel first flags parts
        | .flags =>
          if !first || !parts.isEmpty then
            failAt "global flags not at the start of the expression" start
          let global := (← get).flags
          items fuel first global parts
        | .reference p => items fuel first flags (⟨p, .yes⟩ :: parts)
        | .capture index =>
          let body ← alternatives fuel false flags
          closing start
          closeGroup index body.width
          items fuel first flags (⟨.group index body, .yes⟩ :: parts)
        | .plain inner =>
          let body ← alternatives fuel false inner
          closing start
          items fuel first flags (⟨body, .yes⟩ :: parts)
        | .atomic =>
          let body ← alternatives fuel false flags
          closing start
          items fuel first flags (⟨.atomic body, .yes⟩ :: parts)
        | .look behind negated =>
          let outer := (← get).lookBehind
          if behind && outer.isNone then
            let count ← groupCount
            modify fun r => { r with lookBehind := some count }
          let body ← alternatives fuel false flags
          if behind then modify fun r => { r with lookBehind := outer }
          closing start
          items fuel first flags (⟨.look behind negated body, .yes⟩ :: parts)
        | .conditional index =>
          let yes ← items fuel false flags []
          let no ← if ← accept '|' then items fuel false flags [] else pure .empty
          if (← peek) = some (.plain '|') then
            fail "conditional backref with more than two branches"
          closing start
          items fuel first flags (⟨.conditional index yes no, .yes⟩ :: parts)
      else match ← bounds? c with
        | some (least, most) =>
          items fuel first flags (← quantified start least most parts)
        | none => items fuel first flags (plainPart flags c :: parts)

end

/-- A whole pattern. -/
def whole : PatternReader Pattern := do
  checkNext
  let p ← alternatives (2 * (← get).rest.length + 2) true []
  let r ← get
  if r.flags.contains .ascii && r.flags.contains .unicode then throw .conflictingClasses
  if !r.rest.isEmpty then fail "unbalanced parenthesis"
  match r.conditions.find? fun c => r.groups.length < c.1 with
  | some (index, place) => failAt s!"invalid group reference {index}" place
  | none => match p.fault? (r.flags.contains .single) with
    | some reason => throw (.malformed reason none)
    | none => return p

end PatternReader

/-- Reads a pattern. -/
def Pattern.read (text : String) : Except PatternFault Pattern :=
  (PatternReader.whole.run ⟨pieces text.toList, 0, [], none, [], []⟩).map (·.1)

end Rulebook

/-
  Letter case — text in upper and in lower case.

  * `upper`: letter by letter, some letters becoming several;
  * `lower`: letter by letter, with two exceptions: `İ` becomes `i` and a dot
    above, and `Σ` at the end of a word becomes `ς`;
  * `simpleLower` maps a single letter to a single letter.
-/
import Rulebook.Text.LetterCase.Tables

namespace Rulebook.Text

/-- The counterpart of a code point in a table of runs, if it has one. -/
def caseCounterpart? (runs : Array CaseRun) (n : Nat) : Option Nat :=
  (runs.find? fun r => r.first ≤ n && n ≤ r.last && (n - r.first) % r.stride == 0).map
    fun r => ((n : Int) + r.offset).toNat

/-- A letter in upper case. -/
def upperChar (c : Char) : List Char :=
  match upperExpansions.find? fun e => e.1 == c.toNat with
  | some (_, ns) => ns.map Char.ofNat
  | none => match caseCounterpart? upperRuns c.toNat with
    | some n => [Char.ofNat n]
    | none => [c]

/-- Text in upper case. -/
def upper (s : String) : String := String.ofList (s.toList.flatMap upperChar)

/-- A letter in lower case, as one letter. -/
def simpleLower (c : Char) : Char :=
  if c = 'İ' then 'i'
  else match caseCounterpart? lowerRuns c.toNat with
    | some n => Char.ofNat n
    | none => c

/-- The nearest character that counts has case. -/
def casedNext (cs : List Char) : Bool :=
  match cs.dropWhile (inRanges caseIgnorableRanges) with
  | c :: _ => inRanges casedRanges c
  | [] => false

/-- Lower case of the characters after `before`, which holds those already
    passed, last first. -/
def lowerFrom (before : List Char) : List Char → List Char
  | [] => []
  | c :: rest =>
    let here :=
      if c = 'Σ' then [if casedNext before && !casedNext rest then 'ς' else 'σ']
      else if c = 'İ' then ['i', Char.ofNat 0x307]
      else [simpleLower c]
    here ++ lowerFrom (c :: before) rest

/-- Text in lower case. -/
def lower (s : String) : String := String.ofList (lowerFrom [] s.toList)

end Rulebook.Text

/-
  Matching — whether a pattern occurs in a text.

  A match is sought by trying alternatives in order and going back to the last
  choice on failure: `Pattern.run p a k` matches `p` from the state `a` of an
  attempt and goes on with `k`, which says whether the rest succeeds.

  * `passes` is a repetition that can give passes back, `allPasses` one that
    cannot; a pass that begins where the one before it began ends either;
  * `Pattern.occursIn` tries every offset of a text;
  * `foundIn` reads a pattern and searches for it.
-/
import Rulebook.Pattern.Read

namespace Rulebook

open Text

/-! ## Attempts -/

/-- A state of an attempt: an offset, and what each group matched last, from
    one offset to another. -/
structure Attempt where
  position : Nat
  captures : List (Nat × Nat × Nat)
  deriving DecidableEq, Repr

namespace Attempt

/-- What a group matched last. -/
def capture? (a : Attempt) (index : Nat) : Option (Nat × Nat) := a.captures.lookup index

/-- The attempt after a group has matched from `start` on. -/
def captured (a : Attempt) (index start : Nat) : Attempt :=
  { a with captures := (index, start, a.position) :: a.captures }

end Attempt

/-- What an attempt goes on with. -/
abbrev Continuation := Attempt → Option Attempt

/-! ## Repetitions -/

/-- The most passes that a repetition can make from an attempt, one more than
    needed: each but the required ones starts further on in the text. -/
def passLimit (size least : Nat) (a : Attempt) : Nat := least + (size - a.position) + 2

/-- One pass less. -/
def oneLess : Option Nat → Option Nat := Option.map (· - 1)

/-- Another pass may be made after the required ones. -/
def mayPass (most last : Option Nat) (a : Attempt) : Bool :=
  most != some 0 && last != some a.position

/-- Passes of `step` and then `k`: `least` passes are required and at most
    `most` made; `last` is where the last pass that was not required began. -/
def passes (step : Attempt → Continuation → Option Attempt) (lazy : Bool) :
    Nat → Nat → Option Nat → Option Nat → Attempt → Continuation → Option Attempt
  | 0, _, _, _, _, _ => none
  | n + 1, least + 1, most, last, a, k =>
    step a fun b => passes step lazy n least (oneLess most) last b k
  | n + 1, 0, most, last, a, k =>
    let more := fun _ : Unit =>
      if mayPass most last a then
        step a fun b => passes step lazy n 0 (oneLess most) (some a.position) b k
      else none
    if lazy then (k a).orElse more else (more ()).orElse fun _ => k a

/-- As many passes of `step` as there are. -/
def allPasses (step : Attempt → Option Attempt) :
    Nat → Nat → Option Nat → Option Nat → Attempt → Option Attempt
  | 0, _, _, _, a => some a
  | n + 1, least + 1, most, last, a =>
    (step a).bind (allPasses step n least (oneLess most) last)
  | n + 1, 0, most, last, a =>
    if mayPass most last a then
      match step a with
      | some b => allPasses step n 0 (oneLess most) (some a.position) b
      | none => some a
    else some a

/-! ## Matching a pattern -/

/-- The characters of a text from `start` on agree with those of an earlier part
    of it, of `count` characters from `earlier` on. -/
def agrees (subject : Array Char) (folding : Folding) (start earlier count : Nat) : Bool :=
  (List.range count).all fun i =>
    match subject[start + i]?, subject[earlier + i]? with
    | some c, some d => foldCode folding c.toNat == foldCode folding d.toNat
    | _, _ => false

/-- The offset at which a look starts, if the text goes that far back. -/
def lookStart? (behind : Bool) (width position : Nat) : Option Nat :=
  if !behind then some position
  else if width ≤ position then some (position - width)
  else none

/-- Matches a pattern from an attempt on and goes on with `k`. -/
def Pattern.run (subject : Array Char) : Pattern → Attempt → Continuation → Option Attempt
  | .empty, a, k => k a
  | .one test, a, k =>
    if subject[a.position]?.any test.accepts then k { a with position := a.position + 1 }
    else none
  | .anchor condition, a, k => if condition.holds subject a.position then k a else none
  | .sequence p q, a, k => p.run subject a fun b => q.run subject b k
  | .either p q, a, k => (p.run subject a k).orElse fun _ => q.run subject a k
  | .repeated greed least most body, a, k =>
    let limit := passLimit subject.size least a
    match greed with
    | .greedy => passes (fun b k => body.run subject b k) false limit least most none a k
    | .lazy => passes (fun b k => body.run subject b k) true limit least most none a k
    | .possessive => (allPasses (fun b => body.run subject b some) limit least most none a).bind k
  | .group index body, a, k => body.run subject a fun b => k (b.captured index a.position)
  | .again folding index _, a, k =>
    match a.capture? index with
    | none => none
    | some (start, stop) =>
      if agrees subject folding a.position start (stop - start) then
        k { a with position := a.position + (stop - start) }
      else none
  | .look behind negated body, a, k =>
    let found := match lookStart? behind body.width.least a.position with
      | none => none
      | some start => body.run subject { a with position := start } some
    if negated then (if found.isSome then none else k a)
    else found.bind fun b => k { b with position := a.position }
  | .atomic body, a, k => (body.run subject a some).bind k
  | .conditional index yes no, a, k =>
    if (a.capture? index).isSome then yes.run subject a k else no.run subject a k

/-- A pattern occurs in a text. -/
def Pattern.occursIn (p : Pattern) (text : String) : Bool :=
  let subject := text.toList.toArray
  (List.range (subject.size + 1)).any fun start => (p.run subject ⟨start, []⟩ some).isSome

/-- Whether the pattern that a text spells occurs in another text. -/
def foundIn (text pattern : String) : Except PatternFault Bool := do
  return (← Pattern.read pattern).occursIn text

end Rulebook

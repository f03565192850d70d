/-
  Styles — sequences of characters that change how a terminal writes.
-/
namespace Rulebook.Text

/-- The character that begins a sequence. -/
def escapeChar : Char := '\x1B'

/-- What follows the end of a sequence whose parameters begin here. -/
def afterParameters : List Char → Option (List Char)
  | [] => none
  | c :: rest =>
    if c = ';' || c = '?' || c.isDigit then afterParameters rest
    else if c.isAlpha then some rest
    else none

theorem length_afterParameters (cs rest : List Char) (h : afterParameters cs = some rest) :
    rest.length < cs.length := by
  induction cs with
  | nil => simp [afterParameters] at h
  | cons c cs ih =>
    simp only [afterParameters] at h
    split at h
    · exact Nat.lt_succ_of_lt (ih h)
    · split at h
      · simp_all
      · simp at h

/-- What follows a sequence at the beginning of a text. -/
def afterSequence? : List Char → Option (List Char)
  | c :: '[' :: rest => if c = escapeChar then afterParameters rest else none
  | _ => none

theorem length_afterSequence? (cs rest : List Char) (h : afterSequence? cs = some rest) :
    rest.length < cs.length := by
  unfold afterSequence? at h
  split at h
  · split at h
    · have := length_afterParameters _ _ h
      simp only [List.length_cons]
      omega
    · simp at h
  · simp at h

/-- Characters without sequences that change the style. -/
def withoutSequences (cs : List Char) : List Char :=
  match _h : afterSequence? cs with
  | some rest => withoutSequences rest
  | none => match cs with
    | [] => []
    | c :: rest => c :: withoutSequences rest
termination_by cs.length
decreasing_by
  · exact length_afterSequence? cs rest _h
  · simp

/-- A text without sequences that change the style. -/
def withoutStyle (s : String) : String := String.ofList (withoutSequences s.toList)

end Rulebook.Text

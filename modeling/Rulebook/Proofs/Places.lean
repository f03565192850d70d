/-
  Places — the lines and columns of the offsets in a text, counted in two ways.

  * `locate_eq`, `foldl_advance`: the line and column that are counted along a text,
    character by character, are those that `locate` finds at an offset.
  * `lineBefore`: what stands before an offset on its line.
  * `exists_line`: the line that is shown of an offset is the one that holds it, and
    the column tells how far from its start the offset is.
  * `ExpressionError.IsPlacedIn.isShownIn`: so in a report the caret stands under the
    offset of the error.
-/
import Mathlib.Data.List.DropRight
import Mathlib.Tactic.Common
import Rulebook.Report

namespace Rulebook

open Text

/-! ## Counting along a text -/

/-- The characters after the last line break. -/
def lineBefore (cs : List Char) : List Char := cs.rtakeWhile (· ≠ '\n')

theorem lineBefore_concat_break (cs : List Char) : lineBefore (cs ++ ['\n']) = [] :=
  List.rtakeWhile_concat_neg _ _ _ (by simp)

theorem lineBefore_concat {c : Char} (h : c ≠ '\n') (cs : List Char) :
    lineBefore (cs ++ [c]) = lineBefore cs ++ [c] :=
  List.rtakeWhile_concat_pos _ _ _ (by simp [h])

/-- The place after some characters. -/
def placeAfter (cs : List Char) : LineColumn := ⟨cs.count '\n' + 1, (lineBefore cs).length + 1⟩

theorem placeAfter_concat (cs : List Char) (c : Char) :
    placeAfter (cs ++ [c]) = (placeAfter cs).advance c := by
  unfold placeAfter LineColumn.advance
  split_ifs with h
  · simp [h, lineBefore_concat_break]
  · simp [h, lineBefore_concat h]

theorem foldl_advance (before cs : List Char) :
    cs.foldl .advance (placeAfter before) = placeAfter (before ++ cs) := by
  induction cs generalizing before with
  | nil => simp
  | cons c cs ih => rw [List.foldl_cons, ← placeAfter_concat, ih, List.append_assoc]; rfl

theorem clampOffset_of_le {length n : ℕ} (h : n ≤ length) : clampOffset length n = n := by
  simp [clampOffset, h]

/-- **The place that is found at an offset is the one that is counted up to it.** -/
theorem locate_eq {source : String} {before after : List Char}
    (h : source.toList = before ++ after) : locate source before.length = placeAfter before := by
  have hlength : before.length ≤ source.length := by
    rw [← String.length_toList, h, List.length_append]
    exact Nat.le_add_right _ _
  unfold locate
  rw [clampOffset_of_le hlength, h, List.take_left]
  simp [placeAfter, lineBefore, List.rtakeWhile]

/-! ## Lines -/

section
variable {separator c : Char}

theorem splitOn_ne_nil (separator : Char) (cs : List Char) : splitOn separator cs ≠ [] := by
  cases cs with
  | nil => simp [splitOn]
  | cons c cs =>
    rw [splitOn]
    split_ifs
    · simp
    · split <;> simp

theorem splitOn_cons_self (separator : Char) (cs : List Char) :
    splitOn separator (separator :: cs) = [] :: splitOn separator cs := by
  rw [splitOn, if_pos rfl]

theorem splitOn_cons_of_ne (h : c ≠ separator) (cs : List Char) : ∃ piece pieces,
    splitOn separator cs = piece :: pieces ∧
      splitOn separator (c :: cs) = (c :: piece) :: pieces := by
  obtain ⟨piece, pieces, hsplit⟩ := List.exists_cons_of_ne_nil (splitOn_ne_nil separator cs)
  refine ⟨piece, pieces, hsplit, ?_⟩
  rw [splitOn, if_neg h, hsplit]

/-- The first piece ends before the first separator. -/
theorem getD_splitOn_zero (separator : Char) (cs : List Char) :
    (splitOn separator cs).getD 0 [] = cs.takeWhile (· ≠ separator) := by
  induction cs with
  | nil => rfl
  | cons c cs ih =>
    by_cases h : c = separator
    · subst h
      simp [splitOn_cons_self]
    · obtain ⟨piece, pieces, hsplit, hcons⟩ := splitOn_cons_of_ne h cs
      rw [hsplit] at ih
      rw [hcons, List.takeWhile_cons_of_pos (by simp [h]), ← ih]
      rfl

end

theorem lineBefore_of_not_mem {cs : List Char} (h : '\n' ∉ cs) : lineBefore cs = cs :=
  List.rtakeWhile_eq_self_iff.2 fun c hc => by
    simpa using fun heq : c = '\n' => h (heq ▸ hc)

/-- What stands before a line break, or is one, does not count. -/
theorem lineBefore_cons {c : Char} {cs : List Char} (h : '\n' ∈ c :: cs) :
    lineBefore (c :: cs) = lineBefore cs := by
  induction cs using List.reverseRecOn with
  | nil =>
    obtain rfl : '\n' = c := by simpa using h
    rfl
  | append_singleton cs d ih =>
    rw [← List.cons_append]
    by_cases hd : d = '\n'
    · rw [hd, lineBefore_concat_break, lineBefore_concat_break]
    · have hmem : '\n' ∈ c :: cs := by simpa [Ne.symm hd] using h
      rw [lineBefore_concat hd, lineBefore_concat hd, ih hmem]

/-- The piece that the number of line breaks before an offset tells is the line around
    the offset. -/
theorem getD_splitOn_count (before after : List Char) :
    (splitOn '\n' (before ++ after)).getD (before.count '\n') [] =
      lineBefore before ++ after.takeWhile (· ≠ '\n') := by
  induction before with
  | nil => exact getD_splitOn_zero '\n' after
  | cons c before ih =>
    by_cases h : c = '\n'
    · subst h
      rw [List.cons_append, splitOn_cons_self, List.count_cons_self, List.getD_cons_succ, ih,
        lineBefore_cons List.mem_cons_self]
    · obtain ⟨piece, pieces, hsplit, hcons⟩ := splitOn_cons_of_ne h (before ++ after)
      rw [hsplit] at ih
      rw [List.cons_append, hcons, List.count_cons_of_ne h]
      -- `c` is on the line around the offset only where no break follows it
      by_cases hbreak : '\n' ∈ before
      · obtain ⟨n, hn⟩ := Nat.exists_eq_succ_of_ne_zero (List.count_pos_iff.2 hbreak).ne'
        rw [hn] at ih ⊢
        rw [lineBefore_cons (List.mem_cons_of_mem c hbreak), ← ih]
        rfl
      · have hline : '\n' ∉ c :: before := by simpa [Ne.symm h] using hbreak
        rw [List.count_eq_zero_of_not_mem hbreak] at ih ⊢
        rw [lineBefore_of_not_mem hbreak] at ih
        rw [lineBefore_of_not_mem hline, List.cons_append, ← ih]
        rfl

/-- The line of a text that holds an offset, with what stands before and after it. -/
structure LineAt (cs : List Char) (p : ℕ) (before line after : List Char) : Prop where
  text : cs = before ++ line ++ after
  unbroken : '\n' ∉ line
  starts : before = [] ∨ ∃ cs, before = cs ++ ['\n']
  ends : after = [] ∨ ∃ cs, after = '\n' :: cs
  holds : before.length ≤ p ∧ p ≤ before.length + line.length

theorem eq_nil_or_concat_of_rdropWhile (cs : List Char) :
    cs.rdropWhile (· ≠ '\n') = [] ∨ ∃ cs', cs.rdropWhile (· ≠ '\n') = cs' ++ ['\n'] := by
  by_cases h : cs.rdropWhile (· ≠ '\n') = []
  · exact .inl h
  · have hlast : (cs.rdropWhile (· ≠ '\n')).getLast h = '\n' := by
      simpa using List.rdropWhile_last_not _ cs h
    have hsplit := List.dropLast_append_getLast h
    rw [hlast] at hsplit
    exact .inr ⟨_, hsplit.symm⟩

theorem eq_nil_or_cons_of_dropWhile (cs : List Char) :
    cs.dropWhile (· ≠ '\n') = [] ∨ ∃ cs', cs.dropWhile (· ≠ '\n') = '\n' :: cs' := by
  cases h : cs.dropWhile (· ≠ '\n') with
  | nil => exact .inl rfl
  | cons c cs' =>
    have hhead := List.head?_dropWhile_not (· ≠ '\n') cs
    rw [h] at hhead
    exact .inr ⟨cs', by simpa using hhead⟩

/-- **The line around an offset.** It is the one that is shown, and the column at the
    offset counts from its start. -/
theorem exists_line (done rest : List Char) :
    ∃ before after, LineAt (done ++ rest) done.length before
        (lineBefore done ++ rest.takeWhile (· ≠ '\n')) after ∧
      before ++ lineBefore done = done := by
  have hdone : done.rdropWhile (· ≠ '\n') ++ lineBefore done = done :=
    List.rdropWhile_append_rtakeWhile ..
  have hrest : rest.takeWhile (· ≠ '\n') ++ rest.dropWhile (· ≠ '\n') = rest :=
    List.takeWhile_append_dropWhile
  have hlength := congrArg List.length hdone
  rw [List.length_append] at hlength
  refine ⟨done.rdropWhile (· ≠ '\n'), rest.dropWhile (· ≠ '\n'), ⟨?_, ?_, ?_, ?_, ?_⟩, hdone⟩
  · conv_lhs => rw [← hdone, ← hrest]
    simp only [List.append_assoc]
  · rintro hbreak
    rcases List.mem_append.1 hbreak with hbreak | hbreak
    · simpa using List.mem_rtakeWhile_imp hbreak
    · simpa using List.mem_takeWhile_imp hbreak
  · exact eq_nil_or_concat_of_rdropWhile done
  · exact eq_nil_or_cons_of_dropWhile rest
  · rw [List.length_append]
    omega

/-! ## Reports -/

/-- What is shown of an offset is its line, with a caret as far from the start. -/
theorem illustrate_eq {source : String} {done rest : List Char}
    (h : source.toList = done ++ rest) :
    illustrate source done.length =
      String.ofList ("  ".toList ++ (lineBefore done ++ rest.takeWhile (· ≠ '\n')) ++
        "\n  ".toList ++ List.replicate (lineBefore done).length ' ' ++ ['^']) := by
  have hline := getD_splitOn_count done rest
  rw [← h] at hline
  unfold illustrate
  rw [locate_eq h]
  dsimp only [placeAfter]
  rw [Nat.add_sub_cancel, Nat.add_sub_cancel, hline]

/-- An error stands at an offset of a text, with the line and column of the offset. -/
def ExpressionError.IsPlacedIn (source : String) (e : ExpressionError) : Prop :=
  ∃ p ≤ source.length, e = .atPlace e.cause p (locate source p)

/-- The report of an error shows the line of the text that holds the offset of the
    error, and under it a caret as far from its start as the offset is: the line and
    the column of the error say the same. -/
structure ExpressionError.IsShownIn (source : String) (e : ExpressionError) (p : ℕ)
    (before line after : List Char) : Prop where
  position : e.position = some p
  lineAt : LineAt source.toList p before line after
  lineNumber : e.line = some (before.count '\n' + 1)
  columnNumber : e.column = some (p - before.length + 1)
  report : e.report (some source) = e.report none ++ "\n" ++
    String.ofList ("  ".toList ++ line ++ "\n  ".toList ++
      List.replicate (p - before.length) ' ' ++ ['^'])

/-- **A report shows the line of the error with a caret under its place.** -/
theorem ExpressionError.IsPlacedIn.isShownIn {source : String} {e : ExpressionError}
    (h : e.IsPlacedIn source) : ∃ p before line after, e.IsShownIn source p before line after := by
  obtain ⟨p, hp, he⟩ := h
  generalize e.cause = cause at he
  subst he
  obtain ⟨done, rest, hsource, rfl⟩ : ∃ done rest, source.toList = done ++ rest ∧
      done.length = p := by
    refine ⟨source.toList.take p, source.toList.drop p, (List.take_append_drop p _).symm, ?_⟩
    rw [List.length_take, String.length_toList, Nat.min_eq_left hp]
  obtain ⟨before, after, hline, hdone⟩ := exists_line done rest
  have hunbroken : '\n' ∉ lineBefore done := fun hbreak => by
    simpa using List.mem_rtakeWhile_imp hbreak
  have hcount : done.count '\n' = before.count '\n' := by
    rw [← hdone, List.count_append, List.count_eq_zero_of_not_mem hunbroken, Nat.add_zero]
  have hcolumn : done.length - before.length = (lineBefore done).length := by
    have hlength := congrArg List.length hdone
    rw [List.length_append] at hlength
    omega
  have hplace : locate source done.length =
      ⟨before.count '\n' + 1, done.length - before.length + 1⟩ := by
    rw [locate_eq hsource, placeAfter, hcount, hcolumn]
  refine ⟨done.length, before, _, after, rfl, hsource ▸ hline, ?_, ?_, ?_⟩
  · rw [hplace]
    rfl
  · rw [hplace]
    rfl
  · rw [hcolumn, ← illustrate_eq hsource]
    rfl

end Rulebook

/-
  Searching and slicing texts, in agreement with each other.

  * `findFrom_eq_some`, `findFrom_eq_none`: the first occurrence of a text in another, or that
    there is none; `isSome_findFrom`: a text occurs if it is a run of the other's characters.
  * `likeText_surrounded`: between two wildcards a pattern is searched for, whatever it holds.
  * `toList_substring`: a slice as what is taken of what is left behind its first position.
  * `searching_and_slicing_agree`: the function that finds a text, the operators that look for
    it and the slices that begin where it is found agree, and two slices that meet make up the
    text, with positions counted from either end.
-/
import Rulebook.Proofs.Calls
import Rulebook.Proofs.Coherence

namespace Rulebook

/-! ## Occurrences -/

namespace Text

variable {needle s : List Char} {offset k : ℕ}

/-- What is found is the first occurrence. -/
theorem findFrom_eq_some (h : findFrom needle offset s = some k) :
    ∃ i ≤ s.length, k = offset + i ∧ needle <+: s.drop i ∧ ∀ j < i, ¬ needle <+: s.drop j := by
  induction s generalizing offset with
  | nil =>
    unfold findFrom at h
    split_ifs at h with hempty
    obtain rfl := List.isEmpty_iff.1 hempty
    exact ⟨0, le_rfl, (Option.some.inj h).symm, List.nil_prefix, by simp⟩
  | cons c rest ih =>
    unfold findFrom at h
    split_ifs at h with hprefix
    · exact ⟨0, Nat.zero_le _, (Option.some.inj h).symm, List.isPrefixOf_iff_prefix.1 hprefix,
        by simp⟩
    · obtain ⟨i, hi, hk, hfound, hfirst⟩ := ih h
      refine ⟨i + 1, Nat.succ_le_succ hi, by omega, hfound, fun j hj => ?_⟩
      cases j with
      | zero => exact fun hzero => hprefix (List.isPrefixOf_iff_prefix.2 hzero)
      | succ j => exact hfirst j (Nat.lt_of_succ_lt_succ hj)

theorem findFrom_eq_none (h : findFrom needle offset s = none) : ¬ needle <:+: s := by
  induction s generalizing offset with
  | nil =>
    unfold findFrom at h
    split_ifs at h with hempty
    rintro hinfix
    exact hempty (List.isEmpty_iff.2 (List.infix_nil.1 hinfix))
  | cons c rest ih =>
    unfold findFrom at h
    split_ifs at h with hprefix
    rw [List.infix_cons_iff]
    rintro (hhere | hlater)
    · exact hprefix (List.isPrefixOf_iff_prefix.2 hhere)
    · exact ih h hlater

/-- A text occurs in another if it is a run of its characters. -/
theorem isSome_findFrom : (findFrom needle offset s).isSome = true ↔ needle <:+: s := by
  cases h : findFrom needle offset s with
  | none => simp [findFrom_eq_none h]
  | some k =>
    obtain ⟨i, -, -, hfound, -⟩ := findFrom_eq_some h
    simpa using hfound.isInfix.trans (List.drop_suffix i s).isInfix

end Text

open Text

/-- A pattern between two wildcards matches what holds it. -/
theorem Value.likeText_surrounded (s pattern : List Char) :
    likeText s ('%' :: (pattern ++ ['%'])) = (findFrom pattern 0 s).isSome := by
  simp [likeText]

namespace Library

/-! ## Slices -/

section
variable {s : String} {i j : ℤ}

theorem firstPosition_pos (length i : ℤ) : 1 ≤ firstPosition length i := by
  unfold firstPosition
  split_ifs <;> omega

/-- A slice is taken from what is left behind its first position. -/
theorem toList_substring (s : String) (i : ℤ) (j : Option ℤ) :
    (substring s i j).toList =
      (s.toList.take (lastPosition s.toList.length (j.getD s.toList.length)).toNat).drop
        (firstPosition s.toList.length i - 1).toNat :=
  String.toList_ofList

/-- A slice begins the text behind its first position. -/
theorem isPrefix_substring (s : String) (i : ℤ) (j : Option ℤ) :
    (substring s i j).toList <+: s.toList.drop (firstPosition s.toList.length i - 1).toNat := by
  rw [toList_substring, List.drop_take]
  exact List.take_prefix _ _

/-- The slice up to a position and the slice behind it make up the text. -/
theorem append_substring (s : String) {j k : ℤ} (n : ℕ)
    (hj : (lastPosition s.toList.length j).toNat = n ⊓ s.toList.length)
    (hk : (firstPosition s.toList.length k - 1).toNat = n) :
    substring s 1 (some j) ++ substring s k none = s := by
  have hfirst : (firstPosition s.toList.length 1 - 1).toNat = 0 := rfl
  have hlast : (lastPosition s.toList.length s.toList.length).toNat = s.toList.length := by
    unfold lastPosition
    split_ifs <;> omega
  rw [← String.toList_inj, String.toList_append, toList_substring, toList_substring,
    Option.getD_some, Option.getD_none, hj, hk, hfirst, hlast, List.drop_zero, List.take_length,
    ← List.take_eq_take_min, List.take_append_drop]

/-- Two slices that meet behind a position, counted from the beginning, make up the text. -/
theorem append_substring_behind (s : String) {k : ℤ} (hk : 0 ≤ k) :
    substring s 1 (some k) ++ substring s (k + 1) none = s := by
  refine append_substring s k.toNat ?_ ?_
  · unfold lastPosition
    split_ifs <;> omega
  · unfold firstPosition
    split_ifs <;> omega

/-- So do two that meet in front of a position counted from the end. -/
theorem append_substring_before (s : String) {k : ℤ} (hk : 1 ≤ k) :
    substring s 1 (some (-k - 1)) ++ substring s (-k) none = s := by
  refine append_substring s (s.toList.length - k).toNat ?_ ?_
  · unfold lastPosition
    split_ifs <;> omega
  · unfold firstPosition
    split_ifs <;> omega

end

/-! ## Positions -/

section
variable {s needle : String}

/-- A text has a position where it occurs. -/
theorem position_pos_iff : 1 ≤ position s needle ↔ occursIn needle s = true := by
  rw [occursIn, position]
  cases find? s needle <;> simp

/-- The position of a text is the first where it stands. -/
theorem position_spec (h : 1 ≤ position s needle) :
    position s needle ≤ s.toList.length + 1 ∧
      needle.toList <+: s.toList.drop (position s needle - 1) ∧
      ∀ j < position s needle - 1, ¬ needle.toList <+: s.toList.drop j := by
  unfold position find? at *
  cases hfind : findFrom needle.toList 0 s.toList with
  | none => simp [hfind] at h
  | some k =>
    obtain ⟨i, hi, hk, hfound, hfirst⟩ := findFrom_eq_some hfind
    simp only [Option.map_some, Option.getD_some]
    obtain rfl : k = i := by omega
    exact ⟨by omega, hfound, hfirst⟩

/-- The slice of its length at the position of a text is the text. -/
theorem substring_position (h : 1 ≤ position s needle) :
    substring s (position s needle) (some (position s needle + needle.toList.length - 1)) =
      needle := by
  obtain ⟨hle, hfound, -⟩ := position_spec h
  have hlength := hfound.length_le
  rw [List.length_drop] at hlength
  have hfirst : (firstPosition s.toList.length (position s needle) - 1).toNat =
      position s needle - 1 := by
    unfold firstPosition
    split_ifs <;> omega
  have hlast : (lastPosition s.toList.length
      (position s needle + needle.toList.length - 1)).toNat =
        position s needle - 1 + needle.toList.length := by
    unfold lastPosition
    split_ifs <;> omega
  rw [← String.toList_inj, toList_substring, Option.getD_some, hfirst, hlast,
    List.drop_take, Nat.add_sub_cancel_left]
  exact (List.prefix_iff_eq_take.1 hfound).symm

/-- No slice that begins in front of the position of a text is the text. -/
theorem substring_ne_of_lt {i : ℤ} (j : Option ℤ)
    (h : firstPosition s.toList.length i < position s needle) : substring s i j ≠ needle := by
  rintro rfl
  have hpos := firstPosition_pos s.toList.length i
  have hfound : 1 ≤ position s (substring s i j) := by omega
  obtain ⟨-, -, hfirst⟩ := position_spec hfound
  exact hfirst _ (by omega) (isPrefix_substring s i j)

end

/-! ## Calls -/

section
variable {a b v : Value} {x y : Float} {i j : ℤ}

theorem answers_find (a b : Value) :
    Answers "find" [a, b] (.number (Number.ofNat (position (textOf a) (textOf b)))) :=
  (answers_iff (fun args => .ok (.number (Number.ofNat
      (position (textOf (argument args 0)) (textOf (argument args 1))))))
    fun _ _ => ⟨_, rfl, rfl, fun _ _ => rfl⟩).2 rfl

theorem answers_len (a : Value) :
    Answers "len" [a] (.number (Number.ofNat (textOf a).length)) :=
  (answers_iff (fun args => .ok (.number (Number.ofNat (textOf (argument args 0)).length)))
    fun _ _ => ⟨_, rfl, rfl, fun _ _ => rfl⟩).2 rfl

theorem answers_concat (args : List Value) :
    Answers "concat" args (.text (concatenated args)) :=
  (answers_iff (fun args => .ok (.text (concatenated args)))
    fun _ _ => ⟨_, rfl, rfl, fun _ _ => rfl⟩).2 rfl

/-- A call that cuts a slice, both ends given. -/
theorem answers_substr (v : Value) (hx : IsInteger x i) (hy : IsInteger y j) :
    Answers "substr" [v, .number x, .number y] (.text (substring (textOf v) i (some j))) := by
  refine (answers_iff (fun args => substr (argument args 0) (argument args 1) (argument args 2))
    fun _ _ => ⟨_, rfl, rfl, fun _ _ => rfl⟩).2 ?_
  have hstart : wholeOf "substr" (.number x) = .ok i := wholeOf_eq_ok.2 ⟨x, rfl, hx⟩
  have hstop : wholeOf "substr" (.number y) = .ok j := wholeOf_eq_ok.2 ⟨y, rfl, hy⟩
  change substr v (.number x) (.number y) = _
  rw [substr, hstart, hstop]
  rfl

/-- A call that cuts a slice up to the end. -/
theorem answers_substr_end (v : Value) (hx : IsInteger x i) :
    Answers "substr" [v, .number x] (.text (substring (textOf v) i none)) := by
  refine (answers_iff (fun args => substr (argument args 0) (argument args 1) (argument args 2))
    fun _ _ => ⟨_, rfl, rfl, fun _ _ => rfl⟩).2 ?_
  have hstart : wholeOf "substr" (.number x) = .ok i := wholeOf_eq_ok.2 ⟨x, rfl, hx⟩
  change substr v (.number x) .null = _
  rw [substr, hstart]
  rfl

end

theorem textOf_of_ne_null {a : Value} (h : a ≠ .null) : textOf a = a.toText := by
  cases a with
  | null => exact absurd rfl h
  | _ => rfl

theorem isNull_of_ne_null {a : Value} (h : a ≠ .null) : a.isNull = false := by
  cases a with
  | null => exact absurd rfl h
  | _ => rfl

theorem concatenated_texts (s t : String) : concatenated [.text s, .text t] = s ++ t := by
  simp [concatenated, Value.isNull, Value.toText, String.join]

/-- The text of a value between wildcards. -/
theorem concatenated_wildcards {a : Value} (h : a ≠ .null) :
    (concatenated [.text "%", a, .text "%"]).toList = '%' :: (a.toText.toList ++ ['%']) := by
  simp [concatenated, Value.isNull, Value.toText, String.join]

section
open BinaryOperator

variable {a b : Value} (ha : a ≠ .null) (hb : b ≠ .null)
include ha hb

/-- A value contains what has a position in it. -/
theorem holds_contains : Holds .contains a b ↔ occursIn b.toText a.toText = true := by
  change Except.ok (Value.boolean (a.contains b)) = .ok (.boolean true) ↔ _
  rw [Except.ok.injEq, Value.boolean.injEq, Value.contains, isNull_of_ne_null ha,
    isNull_of_ne_null hb]
  rfl

/-- A value is like what has a position in it, between wildcards. -/
theorem holds_like : Holds .like a (.text (concatenated [.text "%", b, .text "%"])) ↔
    occursIn b.toText a.toText = true := by
  change Except.ok (Value.boolean (a.like _)) = .ok (.boolean true) ↔ _
  rw [Except.ok.injEq, Value.boolean.injEq, Value.like, isNull_of_ne_null ha, Value.toText,
    concatenated_wildcards hb, Value.likeText_surrounded]
  rfl

end

/-- **Searching and slicing agree.** Where neither of two values is null, the position of the
    text of the second in that of the first is positive exactly if the text is a run of the
    characters there, exactly if the first contains the second, and exactly if it is like the
    second between wildcards. Then the slice of that length that begins there is the text, and
    no slice that begins further in front is. And
    the slices of any text up to a position and behind it, counted from the beginning, or in
    front of it and from it on, counted from the end, make up the text. -/
theorem searching_and_slicing_agree {a b : Value} (ha : a ≠ .null) (hb : b ≠ .null) (v : Value) :
    (∃ k l : ℕ, ∃ pattern,
      Answers "find" [a, b] (.number (Number.ofNat k)) ∧
      Answers "len" [b] (.number (Number.ofNat l)) ∧
      Answers "concat" [.text "%", b, .text "%"] pattern ∧
      (1 ≤ k ↔ BinaryOperator.contains.Holds a b) ∧
      (1 ≤ k ↔ BinaryOperator.like.Holds a pattern) ∧
      (1 ≤ k ↔ b.toText.toList <:+: a.toText.toList) ∧
      (1 ≤ k → substring (textOf a) k (some (k + l - 1)) = b.toText ∧
        ∀ i j, firstPosition (textOf a).toList.length i < k →
          substring (textOf a) i j ≠ b.toText)) ∧
    (∀ k : ℤ, 0 ≤ k → Answers "concat" [.text (substring (textOf v) 1 (some k)),
      .text (substring (textOf v) (k + 1) none)] (.text (textOf v))) ∧
    (∀ k : ℤ, 1 ≤ k → Answers "concat" [.text (substring (textOf v) 1 (some (-k - 1))),
      .text (substring (textOf v) (-k) none)] (.text (textOf v))) ∧
    (∀ w x y i j, IsInteger x i → IsInteger y j →
      Answers "substr" [w, .number x] (.text (substring (textOf w) i none)) ∧
      Answers "substr" [w, .number x, .number y]
        (.text (substring (textOf w) i (some j)))) := by
  refine ⟨⟨position (textOf a) (textOf b), (textOf b).length,
    .text (concatenated [.text "%", b, .text "%"]), answers_find a b, answers_len b,
    answers_concat _, ?_, ?_, ?_, ?_⟩, ?_, ?_, ?_⟩
  · rw [holds_contains ha hb, position_pos_iff, textOf_of_ne_null ha, textOf_of_ne_null hb]
  · rw [holds_like ha hb, position_pos_iff, textOf_of_ne_null ha, textOf_of_ne_null hb]
  · rw [position_pos_iff, textOf_of_ne_null ha, textOf_of_ne_null hb]
    exact isSome_findFrom
  · rw [← textOf_of_ne_null hb]
    exact fun h => ⟨substring_position h, fun i j hi => substring_ne_of_lt j hi⟩
  · intro k hk
    have hanswers := answers_concat [.text (substring (textOf v) 1 (some k)),
      .text (substring (textOf v) (k + 1) none)]
    rwa [concatenated_texts, append_substring_behind _ hk] at hanswers
  · intro k hk
    have hanswers := answers_concat [.text (substring (textOf v) 1 (some (-k - 1))),
      .text (substring (textOf v) (-k) none)]
    rwa [concatenated_texts, append_substring_before _ hk] at hanswers
  · exact fun w x y i j hx hy => ⟨answers_substr_end w hx, answers_substr w hx hy⟩

/-- A text with a wildcard in it is found in another, and is the slice there. -/
theorem half_found :
    Value.text "up 50% off" ≠ .null ∧ Value.text "0% o" ≠ .null ∧
      ∃ k l : ℕ, Answers "find" [.text "up 50% off", .text "0% o"] (.number (Number.ofNat k)) ∧
        Answers "len" [.text "0% o"] (.number (Number.ofNat l)) ∧ 1 ≤ k ∧
        substring "up 50% off" k (some (k + l - 1)) = "0% o" := by
  obtain ⟨⟨k, l, -, hfind, hlen, -, hcontains, -, -, hslice⟩, -⟩ :=
    searching_and_slicing_agree (a := .text "up 50% off") (b := .text "0% o") nofun nofun .null
  have hholds : BinaryOperator.contains.Holds (.text "up 50% off") (.text "0% o") := by
    unfold BinaryOperator.Holds
    decide +kernel
  have hfound : 1 ≤ k := hcontains.2 hholds
  exact ⟨nofun, nofun, k, l, hfind, hlen, hfound, (hslice hfound).1⟩

end Library

end Rulebook

/-
  Respacing — the words of a text with other blanks around them.

  * `Means.before_blank`: a word is read whole in front of a blank, and as what it means.
  * `Spaces words text`: the text is the words in order, with blanks between each two and
    perhaps at either end.
  * `tokenize_spaced`: such a text has the tokens that its words were read as, at other
    places (`Token.Alike`).
-/
import Rulebook.Proofs.Spelling

namespace Rulebook

open Text Number

/-! ## Blanks and words -/

theorem isBlank_eq_false_of_symbol? {c : Char} {k : TokenKind} (h : symbol? c = some k) :
    isBlank c = false := by
  unfold symbol? at h
  split at h
  iterate 13 exact isBlank_eq_false (by decide) (by decide)
  cases h

theorem isBlank_eq_false_of_pairSymbol? {c d : Char} {k : TokenKind}
    (h : pairSymbol? c d = some k) : isBlank c = false ∧ isBlank d = false := by
  unfold pairSymbol? at h
  split at h
  iterate 7
    exact ⟨isBlank_eq_false (by decide) (by decide), isBlank_eq_false (by decide) (by decide)⟩
  cases h

/-- A text that goes on with no word: it is empty, or begins with a blank. -/
def BlankFirst (cs : List Char) : Prop := ∀ c ∈ cs.head?, isBlank c = true

/-- **In front of a blank a word is read whole**, and as what it means. -/
theorem Means.before_blank {w : List Char} {k : TokenKind} (h : Means w k) {rest : List Char}
    (hrest : BlankFirst rest) : IsFirstWord k w rest := by
  cases h with
  | pair hk => exact .pair (isBlank_eq_false_of_pairSymbol? hk).1 hk rest
  | symbol hk =>
    refine .single (isBlank_eq_false_of_symbol? hk) (fun d hd => ?_) hk
    cases hpair : pairSymbol? _ d with
    | none => rfl
    | some k =>
      have hblank := hrest d hd
      rw [(isBlank_eq_false_of_pairSymbol? hpair).2] at hblank
      cases hblank
  | number hw => exact .number hw fun c hc => (not_continues_of_isBlank (hrest c hc)).2
  | text hquote hbody =>
    exact .text hquote (bodyLength?_of_isTextBody hquote.ne_slash hbody rest)
  | name hc hcs =>
    exact .word hc hcs fun d hd => (not_continues_of_isBlank (hrest d hd)).1

/-! ## Gaps -/

/-- A run of blanks. -/
def IsGap (gap : List Char) : Prop := ∀ c ∈ gap, isBlank c = true

theorem scanFrom_blank {c : Char} (hc : isBlank c = true) (position : ℕ) (place : LineColumn)
    (cs : List Char) :
    scanFrom position place (c :: cs) = scanFrom (position + 1) (place.advance c) cs := by
  -- the blanks that follow are gone past with the first
  have hrun : ∀ {c : Char}, isBlank c = true → ∀ position place cs,
      scanFrom position place (c :: cs) =
        scanFrom (position + (c :: cs.takeWhile isBlank).length)
          ((c :: cs.takeWhile isBlank).foldl .advance place) (cs.dropWhile isBlank) := by
    intro c hc position place cs
    obtain ⟨l, hl, hk, htake, hdrop⟩ := first?_blank hc cs
    rw [scanFrom_blanks hl hk, htake, hdrop]
  rw [hrun hc]
  cases cs with
  | nil => rfl
  | cons d cs =>
    by_cases hd : isBlank d = true
    · rw [hrun hd, List.takeWhile_cons_of_pos hd, List.dropWhile_cons_of_pos hd,
        List.length_cons, List.foldl_cons]
      congr 1
      omega
    · rw [List.takeWhile_cons_of_neg hd, List.dropWhile_cons_of_neg hd]
      rfl

theorem scanFrom_gap {gap : List Char} (hgap : IsGap gap) (cs : List Char) :
    ∀ (position : ℕ) (place : LineColumn), scanFrom position place (gap ++ cs) =
      scanFrom (position + gap.length) (gap.foldl .advance place) cs := by
  induction gap with
  | nil => exact fun position place => rfl
  | cons c gap ih =>
    intro position place
    obtain ⟨hc, hgap⟩ := List.forall_mem_cons.1 hgap
    rw [List.cons_append, scanFrom_blank hc, ih hgap, List.length_cons, List.foldl_cons,
      Nat.add_assoc, Nat.add_comm 1]

/-! ## Spaced words -/

/-- Words in order, each with a gap behind it that is not empty where another follows. -/
inductive SpacedFrom : List String → List Char → Prop
  | nil : SpacedFrom [] []
  | cons {w gap words rest} : IsGap gap → (words ≠ [] → gap ≠ []) → SpacedFrom words rest →
      SpacedFrom (w :: words) (w.toList ++ (gap ++ rest))

/-- A text of words in order, with blanks between each two, and perhaps at either end. -/
def Spaces (words : List String) (text : String) : Prop :=
  ∃ gap rest, IsGap gap ∧ SpacedFrom words rest ∧ text.toList = gap ++ rest

/-- The same token, but for its place. -/
structure Token.Alike (t u : Token) : Prop where
  kind : t.kind = u.kind
  lexeme : t.lexeme = u.lexeme

theorem scanFrom_spaced {w : List Token} (hw : ∀ t ∈ w, Means t.lexeme.toList t.kind) :
    ∀ {cs : List Char}, SpacedFrom (w.map (·.lexeme)) cs → ∀ (position : ℕ) (place : LineColumn),
      ∃ us q at_, scanFrom position place cs = (us ++ [.finishAt q at_], none) ∧
        List.Forall₂ Token.Alike w us := by
  induction w with
  | nil =>
    rintro cs ⟨⟩ position place
    rw [scanFrom]
    exact ⟨[], _, _, rfl, .nil⟩
  | cons t w ih =>
    intro cs hcs position place
    obtain ⟨ht, hw⟩ := List.forall_mem_cons.1 hw
    cases hcs with
    | @cons _ gap _ rest hgap hne hrest =>
      have hblank : BlankFirst (gap ++ rest) := by
        cases gap with
        | nil =>
          obtain rfl : w = [] := by simpa using hne
          cases hrest
          simp [BlankFirst]
        | cons c gap =>
          rintro d ⟨⟩
          exact hgap c List.mem_cons_self
      have hfirst := ht.before_blank hblank
      obtain ⟨us, q, at_, hus, halike⟩ := ih hw hrest
        (position + t.lexeme.toList.length + gap.length)
        (gap.foldl .advance (t.lexeme.toList.foldl .advance place))
      refine ⟨⟨t.kind, position, place.line, place.column, t.lexeme⟩ :: us, q, at_, ?_,
        .cons ⟨rfl, rfl⟩ halike⟩
      rw [hfirst.scanFrom, scanFrom_gap hgap, hus, String.ofList_toList]
      rfl

/-- **A text of the same words has the same tokens**, at other places. -/
theorem tokenize_spaced {source text : String} {w : List Token} {e : Token}
    (h : tokenize source = .ok (w ++ [e])) (htext : Spaces (w.map (·.lexeme)) text) :
    ∃ us, tokenize text = .ok us ∧ List.Forall₂ Token.Alike (w ++ [e]) us := by
  obtain ⟨w', q, at_, hends, hmeans⟩ := tokenize_means h
  obtain ⟨rfl, he⟩ := List.append_inj' hends rfl
  obtain rfl : e = .finishAt q at_ := by simpa using he
  obtain ⟨gap, rest, hgap, hrest, htext⟩ := htext
  obtain ⟨us, q', at', hus, halike⟩ := scanFrom_spaced hmeans hrest gap.length
    (gap.foldl .advance LineColumn.first)
  refine ⟨us ++ [.finishAt q' at'], tokenize_eq_ok_iff.2 ?_, ?_⟩
  · rw [scan, htext, scanFrom_gap hgap, Nat.zero_add, hus]
  · exact List.rel_append halike (.cons ⟨rfl, rfl⟩ .nil)

end Rulebook

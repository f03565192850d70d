/-
  Scanning — what the tokens of a text are.

  * `TokenKind.Lexical k`: a kind that a text can hold: its numbers carry no
    minus, its names spell no keyword, and the end of the input stands in no text.
  * `IsFirstWord k w rest`: in front of `rest`, the characters `w` are read as one
    token of the kind `k`.
  * `tokenize_means`, `tokenize_lexical`: the tokens of a text are read from words that mean
    their kinds, so they are of such kinds, and the end of the input follows the last.
-/
import Rulebook.Proofs.Words
import Rulebook.Proofs.Lexemes

namespace Rulebook

open Text Number

/-! ## Kinds in a text -/

/-- A name begins with a letter or the underscore, goes on with these and digits,
    and spells no keyword. -/
structure IsName (n : String) : Prop where
  spelling : ∃ c cs, n.toList = c :: cs ∧ beginsName c = true ∧ ∀ d ∈ cs, continuesName d = true
  free : Keyword.ofName? n.toList = none

/-- A kind that a text can hold. -/
def TokenKind.Lexical : TokenKind → Prop
  | .number x => isNegative x = false
  | .name n => IsName n
  | .finish => False
  | _ => True

theorem pairSymbol?_lexical {c d : Char} {k : TokenKind} (h : pairSymbol? c d = some k) :
    k.Lexical := by
  unfold pairSymbol? at h
  split at h <;> cases h <;> trivial

theorem symbol?_lexical {c : Char} {k : TokenKind} (h : symbol? c = some k) : k.Lexical := by
  unfold symbol? at h
  split at h <;> cases h <;> trivial

/-- What begins with no symbol begins with no sign. -/
theorem takeSign_of_symbol? {c : Char} (h : symbol? c = none) (cs : List Char) :
    takeSign (c :: cs) = (false, c :: cs) := by
  unfold takeSign
  split
  · next heq => cases heq; cases h
  · next heq => cases heq; cases h
  · rfl

theorem isNegative_numeralValue {cs : List Char} (h : (takeSign cs).1 = false) :
    isNegative (numeralValue cs) = false := by
  have hsign : ∀ d, numeral? cs = some d → d.negative = false := by
    intro d hd
    simp only [numeral?, Option.bind_eq_bind, Option.bind_eq_some_iff] at hd
    obtain ⟨_, -, _, -, hd⟩ := hd
    cases hd
    exact h
  unfold numeralValue
  split
  · next d hd => rw [isNegative_toDouble, hsign d hd]
  · exact isNegative_ofMagnitude (Nat.zero_le _)

theorem nameKind_lexical {c : Char} {cs : List Char} (hc : beginsName c = true)
    (hcs : ∀ d ∈ cs, continuesName d = true) : (nameKind (c :: cs)).Lexical := by
  unfold nameKind
  split
  · trivial
  · next hfree =>
    refine ⟨⟨c, cs, by simp, hc, hcs⟩, ?_⟩
    rw [String.toList_ofList]
    exact hfree

/-- A digit or a point begins no symbol. -/
theorem no_symbol_of_digit {c : Char} (hc : isDigit c = true ∨ c = '.') :
    symbol? c = none ∧ ∀ d, pairSymbol? c d = none := by
  have hother : ∀ {s : Char}, s.toNat < 0x2E ∨ s.toNat = 0x2F ∨ 0x39 < s.toNat →
      s.toNat < 0x660 → c ≠ s := by
    rintro s hs hs' rfl
    rcases hc with hc | rfl
    · rw [isDigit_eq_false (by omega) hs'] at hc
      cases hc
    · revert hs
      decide
  refine ⟨?_, fun d => ?_⟩
  · unfold symbol?
    split <;> first | rfl | exact absurd rfl (hother (by decide) (by decide))
  · unfold pairSymbol?
    split <;> first | rfl | exact absurd rfl (hother (by decide) (by decide))

/-- What a word means is of a kind that a text can hold. -/
theorem Means.lexical {w : List Char} {k : TokenKind} (h : Means w k) : k.Lexical := by
  cases h with
  | pair hk => exact pairSymbol?_lexical hk
  | symbol hk => exact symbol?_lexical hk
  | number hw =>
    obtain ⟨c, cs, rfl, hc⟩ := hw.exists_cons
    refine isNegative_numeralValue ?_
    rw [takeSign_of_symbol? (no_symbol_of_digit hc).1]
  | text => trivial
  | name hc hcs => exact nameKind_lexical hc hcs

/-! ## The tokens of a text -/

/-- Tokens of kinds that a text can hold. -/
def Lexical (ts : List Token) : Prop := ∀ t ∈ ts, t.kind.Lexical

theorem Lexical.endless {ts : List Token} (h : Lexical ts) : Endless ts := by
  intro t ht hfinish
  have := h t ht
  rw [hfinish] at this
  exact this

theorem scanFrom_blanks {cs : List Char} {l : Lexeme} (hl : Lexeme.first? cs = some l)
    (hk : l.kind = none) (position : ℕ) (place : LineColumn) :
    scanFrom position place cs =
      scanFrom (position + (cs.take l.length).length) ((cs.take l.length).foldl .advance place)
        (cs.drop l.length) := by
  cases cs with
  | nil => cases hl
  | cons c cs =>
    rw [scanFrom]
    simp only [hl, hk]

theorem scanFrom_token {cs : List Char} {l : Lexeme} {k : TokenKind}
    (hl : Lexeme.first? cs = some l) (hk : l.kind = some k) (position : ℕ) (place : LineColumn)
    {ts : List Token} {error : Option ExpressionError}
    (hrest : scanFrom (position + (cs.take l.length).length)
      ((cs.take l.length).foldl .advance place) (cs.drop l.length) = (ts, error)) :
    scanFrom position place cs =
      (⟨k, position, place.line, place.column, String.ofList (cs.take l.length)⟩ :: ts, error) := by
  cases cs with
  | nil => cases hl
  | cons c cs =>
    rw [scanFrom]
    simp only [hl, hk, hrest]

theorem scanFrom_misfit {c : Char} {cs : List Char} (hl : Lexeme.first? (c :: cs) = none)
    (position : ℕ) (place : LineColumn) :
    scanFrom position place (c :: cs) = ([], some (.atPlace (misfit c) position place)) := by
  rw [scanFrom]
  simp only [hl]

/-- A word in front of a text: its characters are read as one token of the kind, and
    nothing of what follows with them. -/
def IsFirstWord (k : TokenKind) (w rest : List Char) : Prop :=
  ∃ l, Lexeme.first? (w ++ rest) = some l ∧ l.kind = some k ∧ l.length = w.length

/-- After a word in front, the text is read on behind it. -/
theorem IsFirstWord.scanFrom {k : TokenKind} {w rest : List Char} (h : IsFirstWord k w rest)
    (position : ℕ) (place : LineColumn) :
    scanFrom position place (w ++ rest) =
      (⟨k, position, place.line, place.column, String.ofList w⟩ ::
          (Rulebook.scanFrom (position + w.length) (w.foldl .advance place) rest).1,
        (Rulebook.scanFrom (position + w.length) (w.foldl .advance place) rest).2) := by
  obtain ⟨l, hl, hk, hlength⟩ := h
  have htake : (w ++ rest).take l.length = w := by rw [hlength, List.take_left]
  have hdrop : (w ++ rest).drop l.length = rest := by rw [hlength, List.drop_left]
  rw [scanFrom_token hl hk position place (by rw [htake, hdrop]), htake]

/-- The tokens of a text are read from words that mean their kinds, and the end of the
    input follows the last, or an error ends them. -/
theorem scanFrom_cases {cs : List Char} : ∀ (position : ℕ) (place : LineColumn),
    ∃ w, (∀ t ∈ w, Means t.lexeme.toList t.kind) ∧
      ((∃ q at_, scanFrom position place cs = (w ++ [.finishAt q at_], none)) ∨
        ∃ e, scanFrom position place cs = (w, some e)) := by
  induction h : cs.length using Nat.strong_induction_on generalizing cs with
  | _ n ih =>
    subst h
    intro position place
    cases cs with
    | nil =>
      rw [scanFrom]
      exact ⟨[], by simp, .inl ⟨_, _, rfl⟩⟩
    | cons c cs =>
      cases hl : Lexeme.first? (c :: cs) with
      | none =>
        rw [scanFrom_misfit hl]
        exact ⟨[], by simp, .inr ⟨_, rfl⟩⟩
      | some l =>
        have hshort : ((c :: cs).drop l.length).length < (c :: cs).length := by
          have := l.pos
          simp only [List.length_drop, List.length_cons]
          omega
        cases hk : l.kind with
        | none =>
          rw [scanFrom_blanks hl hk]
          exact ih _ hshort rfl _ _
        | some k =>
          obtain ⟨w, hw, hrest⟩ := ih _ hshort rfl
            (position + ((c :: cs).take l.length).length)
            (((c :: cs).take l.length).foldl .advance place)
          let t : Token := ⟨k, position, place.line, place.column,
            String.ofList ((c :: cs).take l.length)⟩
          have ht : Means t.lexeme.toList t.kind := by
            rw [String.toList_ofList]
            exact Lexeme.first?_means hl hk
          refine ⟨t :: w, List.forall_mem_cons.2 ⟨ht, hw⟩, ?_⟩
          rcases hrest with ⟨q, at_, hrest⟩ | ⟨e, hrest⟩
          · exact .inl ⟨q, at_, scanFrom_token hl hk position place hrest⟩
          · exact .inr ⟨e, scanFrom_token hl hk position place hrest⟩

theorem means_of_mem_scan {source : String} {t : Token} (ht : t ∈ (scan source).1)
    (hkind : t.kind ≠ .finish) : Means t.lexeme.toList t.kind := by
  obtain ⟨w, hw, hscan⟩ := @scanFrom_cases source.toList 0 LineColumn.first
  rcases hscan with ⟨q, at_, hends⟩ | ⟨e, hfails⟩
  · rw [scan, hends] at ht
    rcases List.mem_append.1 ht with ht | ht
    · exact hw t ht
    · rw [List.mem_singleton.1 ht] at hkind
      exact absurd rfl hkind
  · rw [scan, hfails] at ht
    exact hw t ht

theorem tokenize_eq_ok_iff {source : String} {ts : List Token} :
    tokenize source = .ok ts ↔ scan source = (ts, none) := by
  unfold tokenize
  split <;> simp_all

/-- The tokens of a text are read from words, but for the end of the input, which is last. -/
theorem tokenize_means {source : String} {ts : List Token} (h : tokenize source = .ok ts) :
    ∃ w q at_, ts = w ++ [.finishAt q at_] ∧ ∀ t ∈ w, Means t.lexeme.toList t.kind := by
  have hscan : scanFrom 0 LineColumn.first source.toList = (ts, none) := tokenize_eq_ok_iff.1 h
  obtain ⟨w, hw, ⟨q, at_, hends⟩ | ⟨e, hfails⟩⟩ := scanFrom_cases 0 LineColumn.first
  · rw [hends] at hscan
    cases hscan
    exact ⟨w, q, at_, rfl, hw⟩
  · rw [hfails] at hscan
    cases hscan

/-- **The end of the input follows the tokens of a text.** -/
theorem tokenize_lexical {source : String} {ts : List Token} (h : tokenize source = .ok ts) :
    ∃ w e, ts = w ++ [e] ∧ e.kind = .finish ∧ Lexical w := by
  obtain ⟨w, q, at_, rfl, hw⟩ := tokenize_means h
  exact ⟨w, _, rfl, rfl, fun t ht => (hw t ht).lexical⟩

end Rulebook

/-
  Spelling — texts that are scanned as given tokens.

  * `Scans cs ks`: the text `cs` is scanned to its end, as tokens of the kinds
    `ks`; `Scans.scanFrom` says so of the scanner.
  * `IsFirstWord.word`, `IsFirstWord.number`, `IsFirstWord.quoted` and the like: the words
    of each pattern stand in front of a text that does not go on with them;
    `Scans.first` puts such a word in front of a text that is scanned.
  * `Scans.literal`: a value that can be written is scanned as itself.
-/
import Rulebook.Proofs.Scanning
import Rulebook.Node.Render

namespace Rulebook

open Text Number

/-! ## Scanned texts -/

/-- A text that is scanned to its end, as tokens of these kinds. -/
inductive Scans : List Char → List TokenKind → Prop
  | finish : Scans [] []
  | blanks {cs l ks} : Lexeme.first? cs = some l → l.kind = none →
      Scans (cs.drop l.length) ks → Scans cs ks
  | token {cs l k ks} : Lexeme.first? cs = some l → l.kind = some k →
      Scans (cs.drop l.length) ks → Scans cs (k :: ks)

theorem Scans.scanFrom {cs : List Char} {ks : List TokenKind} (h : Scans cs ks) :
    ∀ (position : ℕ) (place : LineColumn), ∃ w e,
      scanFrom position place cs = (w ++ [e], none) ∧ w.map (·.kind) = ks ∧ e.kind = .finish := by
  induction h with
  | finish =>
    intro position place
    refine ⟨[], .finishAt position place, ?_, rfl, rfl⟩
    rw [Rulebook.scanFrom]
    rfl
  | blanks hl hk _ ih =>
    intro position place
    rw [scanFrom_blanks hl hk]
    exact ih _ _
  | token hl hk _ ih =>
    intro position place
    obtain ⟨w, e, hw, hks, he⟩ := ih _ _
    exact ⟨_ :: w, e, scanFrom_token hl hk position place hw, by rw [List.map_cons, hks], he⟩

/-- A text that is scanned is tokenized. -/
theorem Scans.tokenize {source : String} {ks : List TokenKind} (h : Scans source.toList ks) :
    ∃ w e, tokenize source = .ok (w ++ [e]) ∧ w.map (·.kind) = ks ∧ e.kind = .finish := by
  obtain ⟨w, e, hw, hks, he⟩ := h.scanFrom 0 LineColumn.first
  exact ⟨w, e, tokenize_eq_ok_iff.2 hw, hks, he⟩

/-- One more word in front. -/
theorem Scans.first {k : TokenKind} {w rest : List Char} {ks : List TokenKind}
    (hw : IsFirstWord k w rest) (h : Scans rest ks) : Scans (w ++ rest) (k :: ks) := by
  obtain ⟨l, hl, hk, hlength⟩ := hw
  refine .token hl hk ?_
  rwa [hlength, List.drop_left]

/-! ## Blanks and symbols -/

theorem first?_blank {c : Char} (hc : isBlank c = true) (cs : List Char) :
    ∃ l, Lexeme.first? (c :: cs) = some l ∧ l.kind = none ∧
      (c :: cs).take l.length = c :: cs.takeWhile isBlank ∧
      (c :: cs).drop l.length = cs.dropWhile isBlank := by
  refine ⟨⟨none, 1 + (cs.takeWhile isBlank).length, by omega⟩, ?_, rfl, ?_, ?_⟩
  · show Lexeme.startingWith? c cs = _
    rw [Lexeme.startingWith?, if_pos hc]
  · show (c :: cs).take (1 + (cs.takeWhile isBlank).length) = _
    rw [Nat.add_comm, List.take_succ_cons,
      ← List.prefix_iff_eq_take.1 (List.takeWhile_prefix isBlank)]
  · show (c :: cs).drop (1 + (cs.takeWhile isBlank).length) = _
    rw [Nat.add_comm, List.drop_succ_cons, drop_length_takeWhile]

theorem Scans.dropBlanks {cs : List Char} {ks : List TokenKind} (h : Scans cs ks) :
    Scans (cs.dropWhile isBlank) ks := by
  cases cs with
  | nil => exact h
  | cons c cs =>
    by_cases hc : isBlank c = true
    · obtain ⟨l, hl, hk, -, hdrop⟩ := first?_blank hc cs
      rw [List.dropWhile_cons_of_pos hc, ← hdrop]
      cases h with
      | blanks hl' _ hrest =>
        rw [hl] at hl'
        cases hl'
        exact hrest
      | token hl' hk' _ =>
        rw [hl] at hl'
        cases hl'
        rw [hk] at hk'
        cases hk'
    · rwa [List.dropWhile_cons_of_neg hc]

theorem isBlank_space : isBlank ' ' = true := by decide +kernel

/-- A blank in front makes no difference. -/
theorem Scans.blank {c : Char} (hc : isBlank c = true) {cs : List Char} {ks : List TokenKind}
    (h : Scans cs ks) : Scans (c :: cs) ks := by
  obtain ⟨l, hl, hk, -, hdrop⟩ := first?_blank hc cs
  exact .blanks hl hk (hdrop ▸ h.dropBlanks)

theorem IsFirstWord.pair {c d : Char} {k : TokenKind} (hc : isBlank c = false)
    (hk : pairSymbol? c d = some k) (rest : List Char) : IsFirstWord k [c, d] rest := by
  refine ⟨⟨some k, 2, by decide⟩, ?_, rfl, rfl⟩
  show Lexeme.startingWith? c (d :: rest) = _
  simp [Lexeme.startingWith?, hc, hk]

theorem IsFirstWord.single {c : Char} {k : TokenKind} {rest : List Char}
    (hc : isBlank c = false) (hpair : ∀ d ∈ rest.head?, pairSymbol? c d = none)
    (hk : symbol? c = some k) : IsFirstWord k [c] rest := by
  have hnone : rest.head?.bind (pairSymbol? c) = none := Option.bind_eq_none_iff.2 hpair
  refine ⟨⟨some k, 1, by decide⟩, ?_, rfl, rfl⟩
  show Lexeme.startingWith? c rest = _
  simp [Lexeme.startingWith?, hc, hnone, hk]

/-- A symbol of two characters in front. -/
theorem Scans.pair {c d : Char} {k : TokenKind} (hc : isBlank c = false)
    (hk : pairSymbol? c d = some k) {cs : List Char} {ks : List TokenKind} (h : Scans cs ks) :
    Scans (c :: d :: cs) (k :: ks) :=
  .first (.pair hc hk cs) h

/-- A symbol of one character in front. -/
theorem Scans.single {c : Char} {k : TokenKind} {cs : List Char} {ks : List TokenKind}
    (hc : isBlank c = false) (hpair : ∀ d ∈ cs.head?, pairSymbol? c d = none)
    (hk : symbol? c = some k) (h : Scans cs ks) : Scans (c :: cs) (k :: ks) :=
  .first (.single hc hpair hk) h

/-! ## Words -/

/-- The characters that stand around words: none of them goes on with a word. -/
def isSeparator (c : Char) : Bool := c = ' ' || c = '(' || c = ')' || c = ',' || c = ';'

/-- A text that goes on with no word before it. -/
def Separates (cs : List Char) : Prop := ∀ c ∈ cs.head?, isSeparator c = true

theorem isSeparator_iff {c : Char} :
    isSeparator c = true ↔ c = ' ' ∨ c = '(' ∨ c = ')' ∨ c = ',' ∨ c = ';' := by
  simp [isSeparator, or_assoc]

theorem separates_cons {c : Char} (hc : isSeparator c = true) (cs : List Char) :
    Separates (c :: cs) := by
  rintro d hd
  cases hd
  exact hc

theorem separates_nil : Separates [] := by simp [Separates]

theorem isBlank_eq_false {c : Char} (h : 0x21 ≤ c.toNat) (h' : c.toNat < 0x80) :
    isBlank c = false := by
  simp only [isBlank, inRanges, blankRanges, List.any_toArray, List.any_cons, List.any_nil,
    Bool.or_false, Bool.or_eq_false_iff, Bool.and_eq_false_iff, decide_eq_false_iff_not]
  omega

theorem beginsName_range {c : Char} (h : beginsName c = true) :
    0x41 ≤ c.toNat ∧ c.toNat < 0x80 := by
  simp only [beginsName, Char.isAlpha, Char.isUpper, Char.isLower, Bool.or_eq_true,
    Bool.and_eq_true, decide_eq_true_eq] at h
  rcases h with (h | h) | rfl
  · have h₁ : 65 ≤ c.toNat := UInt32.le_iff_toNat_le.1 h.1
    have h₂ : c.toNat ≤ 90 := UInt32.le_iff_toNat_le.1 h.2
    omega
  · have h₁ : 97 ≤ c.toNat := UInt32.le_iff_toNat_le.1 h.1
    have h₂ : c.toNat ≤ 122 := UInt32.le_iff_toNat_le.1 h.2
    omega
  · decide

theorem isDigit_range {c : Char} (h : c.isDigit = true) : 0x30 ≤ c.toNat ∧ c.toNat ≤ 0x39 := by
  simp only [Char.isDigit, Bool.and_eq_true, decide_eq_true_eq] at h
  exact ⟨UInt32.le_iff_toNat_le.1 h.1, UInt32.le_iff_toNat_le.1 h.2⟩

theorem continuesName_eq (c : Char) : continuesName c = (beginsName c || c.isDigit) := by
  simp only [continuesName, beginsName, Char.isAlphanum]
  cases c.isAlpha <;> cases c.isDigit <;> simp

/-- A character of names and numerals begins no symbol and is no blank. -/
theorem no_symbol_of_continuesName {c : Char} (h : continuesName c = true) :
    isBlank c = false ∧ symbol? c = none ∧ ∀ d, pairSymbol? c d = none := by
  refine ⟨?_, ?_, fun d => ?_⟩
  · rw [continuesName_eq, Bool.or_eq_true] at h
    rcases h with h | h
    · have := beginsName_range h
      exact isBlank_eq_false (by omega) (by omega)
    · have := isDigit_range h
      exact isBlank_eq_false (by omega) (by omega)
  · unfold symbol?
    split <;> first | rfl | exact absurd h (by decide)
  · unfold pairSymbol?
    split <;> first | rfl | exact absurd h (by decide)

/-- What holds of each blank, one by one. -/
theorem of_isBlank {p : Char → Prop} (h : ∀ r ∈ blankRanges.toList,
    ∀ n ∈ List.range' r.1 (r.2 + 1 - r.1), p (Char.ofNat n)) {c : Char} (hc : isBlank c = true) :
    p c := by
  simp only [isBlank, inRanges, Array.any_eq_true', Bool.and_eq_true, decide_eq_true_eq] at hc
  obtain ⟨r, hr, hlow, hhigh⟩ := hc
  have hmem : c.toNat ∈ List.range' r.1 (r.2 + 1 - r.1) := by
    rw [List.mem_range'_1]
    omega
  simpa using h r (Array.mem_toList_iff.2 hr) c.toNat hmem

/-- A blank goes on with no name and no number. -/
theorem not_continues_of_isBlank {c : Char} (hc : isBlank c = true) :
    continuesName c = false ∧ isDigit c = false ∧ c ≠ '.' :=
  of_isBlank (p := fun c => continuesName c = false ∧ isDigit c = false ∧ c ≠ '.')
    (by decide +kernel) hc

theorem isBlank_eq_false_of_digit {c : Char} (hc : isDigit c = true ∨ c = '.') :
    isBlank c = false := by
  by_contra hblank
  obtain ⟨-, hdigit, hpoint⟩ := not_continues_of_isBlank (by simpa using hblank)
  rcases hc with hc | hc
  · rw [hdigit] at hc
    cases hc
  · exact hpoint hc

theorem numberLength_eq_zero {c : Char} (hd : isDigit c = false) (hp : c ≠ '.')
    (cs : List Char) : numberLength (c :: cs) = 0 := by
  have hwhole : (c :: cs).takeWhile isDigit = [] := List.takeWhile_cons_of_neg (by simp [hd])
  unfold numberLength
  rw [hwhole]
  simp only [List.length_nil, List.drop_zero]
  split
  · next heq => exact absurd (List.cons.inj heq).1 hp
  · rfl

theorem first?_of_beginsName {c : Char} (hc : beginsName c = true) (cs : List Char) :
    Lexeme.first? (c :: cs) =
      some ⟨some (nameKind (c :: cs.take (cs.takeWhile continuesName).length)),
        (cs.takeWhile continuesName).length + 1, by omega⟩ := by
  have hrange := beginsName_range hc
  obtain ⟨hblank, hsymbol, hpair⟩ := no_symbol_of_continuesName (c := c)
    (by rw [continuesName_eq, hc]; rfl)
  have hdigit : isDigit c = false := isDigit_eq_false (by omega) (by omega)
  have hnumber : numberLength (c :: cs) = 0 := by
    refine numberLength_eq_zero hdigit ?_ cs
    rintro rfl
    exact absurd hc (by decide)
  have hquote : ¬ (c = '"' || c = '\'') = true := by
    intro h
    simp only [Bool.or_eq_true, decide_eq_true_eq] at h
    rcases h with rfl | rfl <;> exact absurd hc (by decide)
  have hnone : cs.head?.bind (pairSymbol? c) = none :=
    Option.bind_eq_none_iff.2 fun d _ => hpair d
  show Lexeme.startingWith? c cs = _
  unfold Lexeme.startingWith?
  rw [if_neg (by simp [hblank]), hnone]
  simp only [hsymbol]
  rw [dif_neg (by omega), if_neg hquote, if_pos hc]

theorem IsFirstWord.word {c : Char} {cs rest : List Char} (hc : beginsName c = true)
    (hcs : ∀ d ∈ cs, continuesName d = true)
    (hrest : ∀ d ∈ rest.head?, continuesName d = false) :
    IsFirstWord (nameKind (c :: cs)) (c :: cs) rest := by
  have htake := (takeWhile_append_stop hcs rest hrest).1
  exact ⟨_, first?_of_beginsName hc (cs ++ rest), by simp [htake], by simp [htake]⟩

/-- A word in front. -/
theorem Scans.word {c : Char} {cs rest : List Char} {ks : List TokenKind}
    (hc : beginsName c = true) (hcs : ∀ d ∈ cs, continuesName d = true)
    (hrest : ∀ d ∈ rest.head?, continuesName d = false) (h : Scans rest ks) :
    Scans (c :: (cs ++ rest)) (nameKind (c :: cs) :: ks) :=
  .first (.word hc hcs hrest) h

theorem IsFirstWord.name {n : String} (hn : IsName n) {rest : List Char}
    (hrest : ∀ d ∈ rest.head?, continuesName d = false) :
    IsFirstWord (.name n) n.toList rest := by
  obtain ⟨⟨c, cs, hspelling, hc, hcs⟩, hfree⟩ := hn
  have hkind : nameKind (c :: cs) = .name n := by
    rw [hspelling] at hfree
    rw [nameKind, hfree, ← hspelling, String.ofList_toList]
  rw [hspelling, ← hkind]
  exact .word hc hcs hrest

theorem Scans.name {n : String} (hn : IsName n) {rest : List Char} {ks : List TokenKind}
    (hrest : ∀ d ∈ rest.head?, continuesName d = false) (h : Scans rest ks) :
    Scans (n.toList ++ rest) (.name n :: ks) :=
  .first (.name hn hrest) h

theorem Keyword.word_spelling (k : Keyword) :
    ∃ c cs, k.word.toList = c :: cs ∧ beginsName c = true ∧
      (∀ d ∈ cs, continuesName d = true) ∧ nameKind (c :: cs) = .keyword k := by
  cases k <;>
    exact ⟨_, _, rfl, by decide, List.all_eq_true.1 (by decide), by decide⟩

theorem Scans.keyword (k : Keyword) {rest : List Char} {ks : List TokenKind}
    (hrest : ∀ d ∈ rest.head?, continuesName d = false) (h : Scans rest ks) :
    Scans (k.word.toList ++ rest) (.keyword k :: ks) := by
  obtain ⟨c, cs, hspelling, hc, hcs, hkind⟩ := k.word_spelling
  rw [hspelling, ← hkind]
  exact .word hc hcs hrest h

theorem Separates.no_name {rest : List Char} (h : Separates rest) :
    ∀ d ∈ rest.head?, continuesName d = false := by
  intro d hd
  rcases isSeparator_iff.1 (h d hd) with rfl | rfl | rfl | rfl | rfl <;> decide

/-! ## Numbers -/

/-- Digits are read whole where neither a digit nor a point follows. -/
theorem numberLength_whole {whole rest : List Char} (hwhole : ∀ c ∈ whole, isDigit c = true)
    (hrest : ∀ d ∈ rest.head?, isDigit d = false ∧ d ≠ '.') :
    numberLength (whole ++ rest) = whole.length := by
  have hdrop : (whole ++ rest).drop whole.length = rest := List.drop_left
  unfold numberLength
  rw [(takeWhile_append_stop hwhole rest fun d hd => (hrest d hd).1).1]
  simp only [hdrop]
  cases rest with
  | nil => rfl
  | cons d rest =>
    have hd : d ≠ '.' := (hrest d rfl).2
    simp [hd]

/-- Digits around a point, at least one behind it, are read whole where no digit follows. -/
theorem numberLength_decimal {whole fraction rest : List Char}
    (hwhole : ∀ c ∈ whole, isDigit c = true) (hfraction : ∀ c ∈ fraction, isDigit c = true)
    (hne : fraction ≠ []) (hrest : ∀ d ∈ rest.head?, isDigit d = false) :
    numberLength (whole ++ '.' :: fraction ++ rest) = (whole ++ '.' :: fraction).length := by
  have hsplit : whole ++ '.' :: fraction ++ rest = whole ++ '.' :: (fraction ++ rest) := by simp
  have hdrop : (whole ++ '.' :: (fraction ++ rest)).drop whole.length =
      '.' :: (fraction ++ rest) := List.drop_left
  have hlength : 0 < fraction.length := List.length_pos_iff.2 hne
  unfold numberLength
  rw [hsplit, (takeWhile_append_stop hwhole _ (by simp [isDigit_point])).1]
  simp only [hdrop, (takeWhile_append_stop hfraction rest hrest).1]
  rw [if_neg (by omega)]
  simp only [List.length_append, List.length_cons]
  omega

/-- A numeral is read whole where neither a digit nor a point follows. -/
theorem IsNumeral.numberLength {w rest : List Char} (h : IsNumeral w)
    (hrest : ∀ d ∈ rest.head?, isDigit d = false ∧ d ≠ '.') :
    numberLength (w ++ rest) = w.length := by
  cases h with
  | whole h => exact numberLength_whole h.2 hrest
  | decimal hwhole hfraction =>
    exact numberLength_decimal hwhole hfraction.2 hfraction.1 fun d hd => (hrest d hd).1

theorem Number.Spelled.isNumeral {whole fraction cs : List Char} (h : Spelled whole fraction cs) :
    IsNumeral cs := by
  obtain ⟨rfl, hne, hw, hf⟩ := h
  unfold spelled
  split_ifs with hfraction
  · exact .whole ⟨hne, hw.isDigit⟩
  · exact .decimal hw.isDigit ⟨hfraction, hf.isDigit⟩

theorem Separates.no_number {rest : List Char} (h : Separates rest) :
    ∀ d ∈ rest.head?, isDigit d = false ∧ d ≠ '.' := by
  intro d hd
  rcases isSeparator_iff.1 (h d hd) with rfl | rfl | rfl | rfl | rfl <;>
    exact ⟨isDigit_eq_false (by decide) (by decide), by decide⟩

theorem first?_of_number {c : Char} (hc : isDigit c = true ∨ c = '.') {cs : List Char}
    (hpos : 0 < numberLength (c :: cs)) :
    ∃ l, Lexeme.first? (c :: cs) = some l ∧ l.length = numberLength (c :: cs) ∧
      l.kind = some (.number (numeralValue ((c :: cs).take (numberLength (c :: cs))))) := by
  obtain ⟨hsymbol, hpair⟩ := no_symbol_of_digit hc
  have hnone : cs.head?.bind (pairSymbol? c) = none :=
    Option.bind_eq_none_iff.2 fun d _ => hpair d
  refine ⟨⟨some (.number (numeralValue ((c :: cs).take (numberLength (c :: cs))))),
    numberLength (c :: cs), hpos⟩, ?_, by dsimp only, by dsimp only⟩
  show Lexeme.startingWith? c cs = _
  unfold Lexeme.startingWith?
  rw [if_neg (by simp [isBlank_eq_false_of_digit hc]), hnone]
  simp only [hsymbol]
  rw [dif_pos hpos]

theorem IsFirstWord.number {w rest : List Char} (hw : IsNumeral w)
    (hrest : ∀ d ∈ rest.head?, isDigit d = false ∧ d ≠ '.') :
    IsFirstWord (.number (numeralValue w)) w rest := by
  have hlength := hw.numberLength hrest
  have htake : (w ++ rest).take w.length = w := List.take_left
  obtain ⟨c, cs, rfl, hc⟩ := hw.exists_cons
  have hpos : 0 < numberLength (c :: (cs ++ rest)) := hlength ▸ Nat.succ_pos _
  obtain ⟨l, hl, hlen, hk⟩ := first?_of_number hc hpos
  rw [← List.cons_append] at hl hlen hk
  rw [hlength, htake] at hk
  rw [hlength] at hlen
  exact ⟨l, hl, hk, hlen⟩

/-- A numeral in front. -/
theorem Scans.number {whole fraction cs rest : List Char} {ks : List TokenKind}
    (hcs : Spelled whole fraction cs) (hrest : ∀ d ∈ rest.head?, isDigit d = false ∧ d ≠ '.')
    (h : Scans rest ks) : Scans (cs ++ rest) (.number (numeralValue cs) :: ks) :=
  .first (.number hcs.isNumeral hrest) h

/-! ## Texts in quotes -/

/-- A character that is no escape stands for itself. -/
theorem unescape_cons {c : Char} (hc : c ≠ '\\') (cs : List Char) :
    unescape (c :: cs) = c :: unescape cs := by
  rw [unescape]
  all_goals simp [hc]

/-- A character is escaped by a backslash with another, or stands for itself. -/
theorem escapeChar_cases (c : Char) :
    (∃ d, escapeChar c = ['\\', d] ∧ ∀ rest, unescape ('\\' :: d :: rest) = c :: unescape rest) ∨
      escapeChar c = [c] ∧ c ≠ '\\' ∧ c ≠ '"' := by
  unfold escapeChar
  split
  iterate 5 exact .inl ⟨_, rfl, fun _ => rfl⟩
  next hbackslash hquote _ _ _ => exact .inr ⟨rfl, hbackslash, hquote⟩

theorem unescape_escaped (cs : List Char) : unescape (cs.flatMap escapeChar) = cs := by
  induction cs with
  | nil => rfl
  | cons c cs ih =>
    rw [List.flatMap_cons]
    rcases escapeChar_cases c with ⟨d, hd, hunescape⟩ | ⟨hc, hne, -⟩
    · rw [hd, List.cons_append, List.singleton_append, hunescape, ih]
    · rw [hc, List.singleton_append, unescape_cons hne, ih]

theorem bodyLength?_cons {c quote : Char} (hc : c ≠ '\\') (hq : c ≠ quote) (cs : List Char) :
    bodyLength? quote (c :: cs) = (bodyLength? quote cs).map (· + 1) := by
  rw [bodyLength?, if_neg hq]
  simp [hc]

/-- The closing quote is found behind the text that was escaped. -/
theorem bodyLength?_escaped (cs rest : List Char) :
    bodyLength? '"' (cs.flatMap escapeChar ++ '"' :: rest) =
      some (cs.flatMap escapeChar).length := by
  induction cs with
  | nil => rfl
  | cons c cs ih =>
    rw [List.flatMap_cons]
    rcases escapeChar_cases c with ⟨d, hd, -⟩ | ⟨hc, hne, hquote⟩
    · simp [hd, bodyLength?, ih]
    · rw [hc, List.singleton_append, List.cons_append, bodyLength?_cons hne hquote, ih]
      rfl

theorem first?_quote {quote : Char} (hquote : quote = '"' ∨ quote = '\'') {rest : List Char}
    {n : ℕ} (h : bodyLength? quote rest = some n) :
    Lexeme.first? (quote :: rest) =
      some ⟨some (.text (String.ofList (unescape (rest.take n)))), n + 2, by omega⟩ := by
  have hrange : 0x21 ≤ quote.toNat ∧ quote.toNat < 0x30 := by
    rcases hquote with rfl | rfl <;> decide
  have hblank : isBlank quote = false := isBlank_eq_false (by omega) (by omega)
  have hsymbol : symbol? quote = none := by rcases hquote with rfl | rfl <;> rfl
  have hnone : rest.head?.bind (pairSymbol? quote) = none :=
    Option.bind_eq_none_iff.2 fun d _ => by rcases hquote with rfl | rfl <;> rfl
  have hnumber : numberLength (quote :: rest) = 0 :=
    numberLength_eq_zero (isDigit_eq_false (by omega) (by omega))
      (by rcases hquote with rfl | rfl <;> decide) rest
  show Lexeme.startingWith? quote rest = _
  unfold Lexeme.startingWith?
  rw [if_neg (by simp [hblank]), hnone]
  simp only [hsymbol]
  rw [dif_neg (by omega), if_pos (by simpa using hquote), h]
  rfl

/-- A text between quotes is read to the quote that closes it, whatever follows. -/
theorem IsFirstWord.text {quote : Char} (hquote : quote = '"' ∨ quote = '\'')
    {body rest : List Char} (h : bodyLength? quote (body ++ quote :: rest) = some body.length) :
    IsFirstWord (.text (String.ofList (unescape body))) (quote :: (body ++ [quote])) rest := by
  have hsplit : quote :: (body ++ [quote]) ++ rest = quote :: (body ++ quote :: rest) := by simp
  refine ⟨_, by rw [hsplit]; exact first?_quote hquote h, ?_, by simp⟩
  rw [List.take_left]

/-- A text in quotes in front. No text can end its quotes early. -/
theorem IsFirstWord.quoted (s : String) (rest : List Char) :
    IsFirstWord (.text s) (quotedText s).toList rest := by
  have hword := IsFirstWord.text (.inl rfl) (bodyLength?_escaped s.toList rest)
  rw [unescape_escaped, String.ofList_toList] at hword
  rwa [quotedText, String.toList_ofList]

/-! ## Literals -/

/-- The kind of token that stands for a value. -/
def Value.literalKind : Value → TokenKind
  | .null => .keyword .null_
  | .boolean b => if b then .keyword .true_ else .keyword .false_
  | .number x => .number x
  | .text s => .text s

theorem literal?_literalKind (v : Value) : v.literalKind.literal? = some v := by
  rcases v with _ | (_ | _) | _ | _ <;> rfl

/-- A value that the language has a literal for. -/
def Value.IsWritable : Value → Prop
  | .number x => isFinite x = true ∧ isNegative x = false
  | _ => True

/-- A finite number in front that is not negative. -/
theorem IsFirstWord.plainText {x : Float} (hfinite : isFinite x = true)
    (hx : isNegative x = false) {rest : List Char}
    (hrest : ∀ d ∈ rest.head?, isDigit d = false ∧ d ≠ '.') :
    IsFirstWord (.number x) (plainText x).toList rest := by
  obtain ⟨whole, fraction, cs, hspelled, htext, hvalue⟩ := plainText_spelled hfinite
  rw [hx] at htext
  have htext' : (Number.plainText x).toList = cs := htext
  rw [htext', ← abs_eq_self hx, ← hvalue]
  exact .number hspelled.isNumeral hrest

/-- A literal in front. -/
theorem Scans.literal {v : Value} (hv : v.IsWritable) {rest : List Char} {ks : List TokenKind}
    (hrest : Separates rest) (h : Scans rest ks) :
    Scans ((literalText v).toList ++ rest) (v.literalKind :: ks) := by
  rcases v with _ | (_ | _) | x | s
  · exact .keyword .null_ hrest.no_name h
  · exact .keyword .false_ hrest.no_name h
  · exact .keyword .true_ hrest.no_name h
  · exact .first (.plainText hv.1 hv.2 hrest.no_number) h
  · exact .first (.quoted s rest) h

/-! ## Operators -/

/-- The kind of token that an operator before an operand is. -/
def UnaryOperator.kind : UnaryOperator → TokenKind
  | not_ => .keyword .not_
  | negate => .operator .minus
  | other _ => .finish

/-- The kind of token that an operator between two operands is. -/
def BinaryOperator.kind : BinaryOperator → TokenKind
  | or_ => .keyword .or_
  | and_ => .keyword .and_
  | equal => .operator .equal
  | notEqual => .operator .notEqual
  | less => .operator .less
  | lessEqual => .operator .lessEqual
  | greater => .operator .greater
  | greaterEqual => .operator .greaterEqual
  | like => .keyword .like_
  | matches_ => .keyword .matches_
  | contains => .keyword .contains_
  | before => .keyword .before_
  | after => .keyword .after_
  | plus => .operator .plus
  | minus => .operator .minus
  | times => .operator .times
  | divide => .operator .divide
  | power => .operator .power
  | other _ => .finish

theorem unary?_kind {op : UnaryOperator} (h : ∀ s, op ≠ .other s) :
    op.kind.unary? = some op := by
  cases op with
  | other s => exact absurd rfl (h s)
  | _ => rfl

theorem binary?_kind {op : BinaryOperator} (h : ∀ s, op ≠ .other s) :
    op.kind.binary? = some op := by
  cases op with
  | other s => exact absurd rfl (h s)
  | _ => rfl

theorem no_name_space (rest : List Char) :
    ∀ d ∈ (' ' :: rest).head?, continuesName d = false :=
  (separates_cons rfl rest).no_name

/-- An operator in front of a space. -/
theorem Scans.operator {op : BinaryOperator} (hop : ∀ s, op ≠ .other s) {rest : List Char}
    {ks : List TokenKind} (h : Scans rest ks) :
    Scans (op.symbol.toList ++ ' ' :: rest) (op.kind :: ks) := by
  have h' : Scans (' ' :: rest) ks := h.blank isBlank_space
  have hword : ∀ k : Keyword, Scans (k.word.toList ++ ' ' :: rest) (.keyword k :: ks) :=
    fun k => .keyword k (no_name_space rest) h'
  have hsingle : ∀ {c : Char} {k}, 0x21 ≤ c.toNat ∧ c.toNat < 0x80 → pairSymbol? c ' ' = none →
      symbol? c = some k → Scans (c :: ' ' :: rest) (k :: ks) :=
    fun hc hp hk => .single (isBlank_eq_false hc.1 hc.2) (by rintro d ⟨⟩; exact hp) hk h'
  have hpair : ∀ {c d : Char} {k}, 0x21 ≤ c.toNat ∧ c.toNat < 0x80 → pairSymbol? c d = some k →
      Scans (c :: d :: ' ' :: rest) (k :: ks) :=
    fun hc hk => .pair (isBlank_eq_false hc.1 hc.2) hk h'
  cases op with
  | other s => exact absurd rfl (hop s)
  | or_ => exact hword .or_
  | and_ => exact hword .and_
  | like => exact hword .like_
  | matches_ => exact hword .matches_
  | contains => exact hword .contains_
  | before => exact hword .before_
  | after => exact hword .after_
  | equal => exact @hsingle '=' _ (by decide) rfl rfl
  | less => exact @hsingle '<' _ (by decide) rfl rfl
  | greater => exact @hsingle '>' _ (by decide) rfl rfl
  | plus => exact @hsingle '+' _ (by decide) rfl rfl
  | minus => exact @hsingle '-' _ (by decide) rfl rfl
  | times => exact @hsingle '*' _ (by decide) rfl rfl
  | divide => exact @hsingle '/' _ (by decide) rfl rfl
  | power => exact @hsingle '^' _ (by decide) rfl rfl
  | notEqual => exact @hpair '!' '=' _ (by decide) rfl
  | lessEqual => exact @hpair '<' '=' _ (by decide) rfl
  | greaterEqual => exact @hpair '>' '=' _ (by decide) rfl

/-- An operator in front of its operand. -/
theorem Scans.mark {op : UnaryOperator} (hop : ∀ s, op ≠ .other s) {rest : List Char}
    {ks : List TokenKind} (h : Scans rest ks) : Scans (op.mark.toList ++ rest) (op.kind :: ks) := by
  cases op with
  | other s => exact absurd rfl (hop s)
  | not_ => exact .keyword .not_ (no_name_space rest) (h.blank isBlank_space)
  | negate =>
    have hblank : isBlank '-' = false := isBlank_eq_false (by decide) (by decide)
    exact .single hblank (fun d _ => rfl) rfl h

end Rulebook

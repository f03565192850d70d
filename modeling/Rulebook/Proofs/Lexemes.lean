/-
  Lexemes — which texts are words of the language.

  * `IsWord`: the texts that match one of the patterns of tokens: symbols, numbers,
    quoted texts and names; `Means w k`: the word `w` is a token of the kind `k`.
  * `Lexeme.startingWith?_cases`, `Lexeme.first?_means`: what is found at the start of a
    text means the kind of token that is found.
  * `Lexeme.first?_eq_some`: what is found at the start of a text is a run of blanks
    or a word.
  * `Lexeme.first?_eq_none`: where nothing is found, there is no blank, and no word
    begins.
-/
import Rulebook.Proofs.Numerals

namespace Rulebook

open Text Number

/-! ## Words -/

/-- What can stand between quotes: a backslash with any character after it, and all
    characters but the quote and the backslash. -/
inductive IsTextBody (quote : Char) : List Char → Prop
  | nil : IsTextBody quote []
  | plain {c cs} : c ≠ quote → c ≠ '\\' → IsTextBody quote cs → IsTextBody quote (c :: cs)
  | escaped {c cs} : IsTextBody quote cs → IsTextBody quote ('\\' :: c :: cs)

/-- One digit or more. -/
def IsDigits (cs : List Char) : Prop := cs ≠ [] ∧ ∀ c ∈ cs, isDigit c = true

/-- The characters that a text begins and ends with. -/
def IsQuote (c : Char) : Prop := c = '"' ∨ c = '\''

/-- The texts of tokens. -/
inductive IsWord : List Char → Prop
  | pair {c d k} : pairSymbol? c d = some k → IsWord [c, d]
  | symbol {c k} : symbol? c = some k → IsWord [c]
  | decimal {whole fraction} : IsDigits whole → IsDigits fraction →
      IsWord (whole ++ '.' :: fraction)
  | whole {whole} : IsDigits whole → IsWord whole
  | fraction {fraction} : IsDigits fraction → IsWord ('.' :: fraction)
  | text {quote body} : IsQuote quote → IsTextBody quote body → IsWord (quote :: (body ++ [quote]))
  | name {c cs} : beginsName c = true → (∀ d ∈ cs, continuesName d = true) → IsWord (c :: cs)

/-- The texts of numbers: digits, or a point with digits behind it and perhaps before it. -/
inductive IsNumeral : List Char → Prop
  | whole {ds} : IsDigits ds → IsNumeral ds
  | decimal {ds fs} : (∀ c ∈ ds, isDigit c = true) → IsDigits fs → IsNumeral (ds ++ '.' :: fs)

theorem IsNumeral.exists_cons {w : List Char} (h : IsNumeral w) :
    ∃ c cs, w = c :: cs ∧ (isDigit c = true ∨ c = '.') := by
  cases h with
  | whole h =>
    obtain ⟨c, cs, rfl⟩ := List.exists_cons_of_ne_nil h.1
    exact ⟨c, cs, rfl, .inl (h.2 c List.mem_cons_self)⟩
  | @decimal ds fs hds _ =>
    cases ds with
    | nil => exact ⟨'.', fs, rfl, .inr rfl⟩
    | cons c ds => exact ⟨c, _, rfl, .inl (hds c List.mem_cons_self)⟩

theorem IsNumeral.isWord {w : List Char} (h : IsNumeral w) : IsWord w := by
  cases h with
  | whole h => exact .whole h
  | @decimal ds fs hds hfs =>
    by_cases hne : ds = []
    · subst hne
      exact .fraction hfs
    · exact .decimal ⟨hne, hds⟩ hfs

/-- The kinds of token that words are. -/
inductive Means : List Char → TokenKind → Prop
  | pair {c d k} : pairSymbol? c d = some k → Means [c, d] k
  | symbol {c k} : symbol? c = some k → Means [c] k
  | number {w} : IsNumeral w → Means w (.number (numeralValue w))
  | text {quote body} : IsQuote quote → IsTextBody quote body →
      Means (quote :: (body ++ [quote])) (.text (String.ofList (unescape body)))
  | name {c cs} : beginsName c = true → (∀ d ∈ cs, continuesName d = true) →
      Means (c :: cs) (nameKind (c :: cs))

theorem Means.isWord {w : List Char} {k : TokenKind} (h : Means w k) : IsWord w := by
  cases h with
  | pair hk => exact .pair hk
  | symbol hk => exact .symbol hk
  | number hw => exact hw.isWord
  | text hquote hbody => exact .text hquote hbody
  | name hc hcs => exact .name hc hcs

theorem IsWord.ne_nil {w : List Char} (h : IsWord w) : w ≠ [] := by
  cases h with
  | whole h => exact h.1
  | decimal => simp
  | _ => exact List.cons_ne_nil _ _

/-! ## Quoted texts -/

theorem bodyLength?_of_isTextBody {quote : Char} (hquote : quote ≠ '\\') {body : List Char}
    (h : IsTextBody quote body) (rest : List Char) :
    bodyLength? quote (body ++ quote :: rest) = some body.length := by
  induction h with
  | nil =>
    rw [List.nil_append, bodyLength?, if_pos rfl]
    · rfl
    · exact hquote
  | @plain c cs hc hslash _ ih =>
    rw [List.cons_append, bodyLength?, if_neg hc, ih]
    · rfl
    · exact hslash
  | escaped _ ih =>
    rw [List.cons_append, List.cons_append, bodyLength?, ih]
    rfl

theorem isTextBody_of_bodyLength? {quote : Char} (cs : List Char) : ∀ {n : ℕ},
    bodyLength? quote cs = some n →
      ∃ body rest, cs = body ++ quote :: rest ∧ body.length = n ∧ IsTextBody quote body := by
  induction cs using bodyLength?.induct quote with
  | case1 => exact fun h => by cases h
  | case2 c rest ih =>
    intro n h
    rw [bodyLength?] at h
    obtain ⟨m, hm, rfl⟩ := Option.map_eq_some_iff.1 h
    obtain ⟨body, rest, rfl, rfl, hbody⟩ := ih hm
    exact ⟨'\\' :: c :: body, rest, rfl, rfl, hbody.escaped⟩
  | case3 => exact fun h => by cases h
  | case4 rest hslash =>
    intro n h
    rw [bodyLength?, if_pos rfl] at h
    · cases h
      exact ⟨[], rest, rfl, rfl, .nil⟩
    · exact hslash
  | case5 c rest hslash hquote ih =>
    intro n h
    rw [bodyLength?, if_neg hquote] at h
    · obtain ⟨m, hm, rfl⟩ := Option.map_eq_some_iff.1 h
      obtain ⟨body, rest, rfl, rfl, hbody⟩ := ih hm
      exact ⟨c :: body, rest, rfl, rfl, hbody.plain hquote hslash⟩
    · exact hslash

theorem IsQuote.ne_slash {quote : Char} (h : IsQuote quote) : quote ≠ '\\' := by
  rcases h with rfl | rfl <;> decide

/-! ## Numbers -/

theorem drop_length_takeWhile (p : Char → Bool) (cs : List Char) :
    cs.drop (cs.takeWhile p).length = cs.dropWhile p := by
  calc cs.drop (cs.takeWhile p).length
      = (cs.takeWhile p ++ cs.dropWhile p).drop (cs.takeWhile p).length := by
        rw [List.takeWhile_append_dropWhile]
    _ = cs.dropWhile p := List.drop_left

theorem numberLength_pos_of_isDigit {c : Char} (h : isDigit c = true) (cs : List Char) :
    0 < numberLength (c :: cs) := by
  unfold numberLength
  rw [List.takeWhile_cons_of_pos h, List.length_cons]
  dsimp only
  split_ifs <;> omega

theorem numberLength_pos_of_point {c : Char} (h : isDigit c = true) (cs : List Char) :
    0 < numberLength ('.' :: c :: cs) := by
  unfold numberLength
  rw [List.takeWhile_cons_of_neg (by simp [isDigit_point])]
  simp [List.takeWhile_cons_of_pos h]

theorem IsDigits.takeWhile {cs : List Char} (h : cs.takeWhile isDigit ≠ []) :
    IsDigits (cs.takeWhile isDigit) :=
  ⟨h, fun _ hc => List.mem_takeWhile_imp hc⟩

theorem isNumeral_of_numberLength {cs : List Char} (h : 0 < numberLength cs) :
    ∃ w rest, cs = w ++ rest ∧ w.length = numberLength cs ∧ IsNumeral w := by
  have hcs : cs.takeWhile isDigit ++ cs.dropWhile isDigit = cs := List.takeWhile_append_dropWhile
  unfold numberLength at h ⊢
  simp only [drop_length_takeWhile] at h ⊢
  split_ifs at h ⊢ with hfraction
  · exact ⟨_, _, hcs.symm, rfl, .whole (.takeWhile (List.ne_nil_of_length_pos h))⟩
  · split at hfraction
    · next rest hrest =>
      have hdigits : IsDigits (rest.takeWhile isDigit) :=
        .takeWhile fun heq => hfraction (congrArg List.length heq)
      refine ⟨cs.takeWhile isDigit ++ '.' :: rest.takeWhile isDigit, rest.dropWhile isDigit,
        ?_, ?_, .decimal (fun _ hc => List.mem_takeWhile_imp hc) hdigits⟩
      · conv_lhs => rw [← hcs, hrest, ← List.takeWhile_append_dropWhile (p := isDigit) (l := rest)]
        simp
      · simp only [List.length_append, List.length_cons]
        omega
    · exact absurd rfl hfraction

/-! ## The first lexeme -/

/-- What starts a text is blank or a word. -/
inductive Lexeme.Reads (l : Lexeme) (w : List Char) : Prop
  | blank : l.kind = none → (∀ c ∈ w, isBlank c = true) → Reads l w
  | word {k} : l.kind = some k → IsWord w → Reads l w

/-- What starts a text is blank, or a word with its meaning. -/
theorem Lexeme.startingWith?_cases {c : Char} {cs : List Char} {l : Lexeme}
    (h : startingWith? c cs = some l) :
    ∃ w rest, c :: cs = w ++ rest ∧ w.length = l.length ∧
      ((l.kind = none ∧ ∀ c ∈ w, isBlank c = true) ∨ ∃ k, l.kind = some k ∧ Means w k) := by
  unfold startingWith? at h
  split at h
  · next hblank =>
    cases h
    refine ⟨c :: cs.takeWhile isBlank, cs.dropWhile isBlank, ?_, Nat.add_comm .., .inl ⟨rfl, ?_⟩⟩
    · rw [List.cons_append, List.takeWhile_append_dropWhile]
    · rintro d (_ | ⟨_, hd⟩)
      · exact hblank
      · exact List.mem_takeWhile_imp hd
  split at h
  · next hpair =>
    obtain ⟨d, hd, hpair⟩ := Option.bind_eq_some_iff.1 hpair
    obtain ⟨rest, rfl⟩ : ∃ rest, cs = d :: rest := by
      cases cs <;> simp_all
    cases h
    exact ⟨[c, d], rest, rfl, rfl, .inr ⟨_, rfl, .pair hpair⟩⟩
  split at h
  · next hsymbol =>
    cases h
    exact ⟨[c], cs, rfl, rfl, .inr ⟨_, rfl, .symbol hsymbol⟩⟩
  split at h
  · next hnumber =>
    obtain ⟨w, rest, hcs, hlength, hw⟩ := isNumeral_of_numberLength hnumber
    have htake : (c :: cs).take (numberLength (c :: cs)) = w := by
      rw [← hlength, hcs, List.take_left]
    rw [htake] at h
    cases h
    refine ⟨w, rest, hcs, ?_, .inr ⟨_, by dsimp only, .number hw⟩⟩
    dsimp only
    exact hlength
  split at h
  · next hquote =>
    obtain ⟨n, hn, rfl⟩ := Option.map_eq_some_iff.1 h
    obtain ⟨body, rest, rfl, rfl, hbody⟩ := isTextBody_of_bodyLength? cs hn
    have hquote : IsQuote c := by simpa [IsQuote] using hquote
    refine ⟨c :: (body ++ [c]), rest, by simp, by simp, .inr ⟨_, rfl, ?_⟩⟩
    rw [List.take_left]
    exact .text hquote hbody
  split at h
  · next hname =>
    cases h
    refine ⟨c :: cs.takeWhile continuesName, cs.dropWhile continuesName, ?_, rfl, .inr ⟨_, rfl, ?_⟩⟩
    · rw [List.cons_append, List.takeWhile_append_dropWhile]
    · rw [← List.prefix_iff_eq_take.1 (List.takeWhile_prefix continuesName)]
      exact .name hname fun d hd => List.mem_takeWhile_imp hd
  · cases h

theorem Lexeme.startingWith?_eq_some {c : Char} {cs : List Char} {l : Lexeme}
    (h : startingWith? c cs = some l) :
    ∃ w rest, c :: cs = w ++ rest ∧ w.length = l.length ∧ l.Reads w := by
  obtain ⟨w, rest, hcs, hlength, ⟨hk, hw⟩ | ⟨k, hk, hw⟩⟩ := startingWith?_cases h
  · exact ⟨w, rest, hcs, hlength, .blank hk hw⟩
  · exact ⟨w, rest, hcs, hlength, .word hk hw.isWord⟩

/-- **What is found at the start of a text is a run of blanks or a word.** -/
theorem Lexeme.first?_eq_some {cs : List Char} {l : Lexeme} (h : first? cs = some l) :
    ∃ w rest, cs = w ++ rest ∧ w.length = l.length ∧ l.Reads w := by
  cases cs with
  | nil => cases h
  | cons c cs => exact startingWith?_eq_some h

/-- A token at the start of a text is read from a word that means its kind. -/
theorem Lexeme.first?_means {cs : List Char} {l : Lexeme} {k : TokenKind}
    (hl : first? cs = some l) (hk : l.kind = some k) : Means (cs.take l.length) k := by
  cases cs with
  | nil => cases hl
  | cons c cs =>
    obtain ⟨w, rest, hcs, hlength, ⟨hnone, -⟩ | ⟨k', hk', hw⟩⟩ := startingWith?_cases hl
    · rw [hnone] at hk
      cases hk
    · rw [hk] at hk'
      cases hk'
      rwa [hcs, ← hlength, List.take_left]

/-- No pattern fits the start of a text. -/
structure FitsNothing (c : Char) (cs : List Char) : Prop where
  blank : isBlank c = false
  pair : cs.head?.bind (pairSymbol? c) = none
  symbol : symbol? c = none
  number : numberLength (c :: cs) = 0
  text : IsQuote c → bodyLength? c cs = none
  name : beginsName c = false

theorem Lexeme.startingWith?_eq_none {c : Char} {cs : List Char}
    (h : startingWith? c cs = none) : FitsNothing c cs := by
  unfold startingWith? at h
  split at h
  · cases h
  next hblank =>
  split at h
  · cases h
  next hpair =>
  split at h
  · cases h
  next hsymbol =>
  split at h
  · cases h
  next hnumber =>
  have hblank : isBlank c = false := by simpa using hblank
  split at h
  · next hquote =>
    have hname : beginsName c = false := by
      rcases (by simpa using hquote : c = '"' ∨ c = '\'') with rfl | rfl <;> rfl
    exact ⟨hblank, hpair, hsymbol, by omega, fun _ => Option.map_eq_none_iff.1 h, hname⟩
  next hquote =>
  split at h
  · cases h
  next hname =>
  exact ⟨hblank, hpair, hsymbol, by omega, fun hc => absurd (by simpa [IsQuote] using hc) hquote,
    by simpa using hname⟩

/-- No word begins a text. -/
def Wordless (cs : List Char) : Prop := ∀ w, w <+: cs → ¬ IsWord w

/-- Each word is of a pattern that would fit. -/
theorem FitsNothing.wordless {c : Char} {cs : List Char} (h : FitsNothing c cs) :
    Wordless (c :: cs) := by
  rintro w ⟨rest, hcs⟩ hw
  -- a text that digits begin has a number
  have digits : ∀ {whole rest}, IsDigits whole → whole ++ rest = c :: cs → False := by
    rintro whole rest ⟨hne, hdigits⟩ hcs
    obtain ⟨d, whole, rfl⟩ := List.exists_cons_of_ne_nil hne
    cases hcs
    exact (numberLength_pos_of_isDigit (hdigits _ List.mem_cons_self) _).ne' h.number
  cases hw with
  | pair hk =>
    cases hcs
    have hnone := h.pair
    rw [List.append_eq, List.cons_append, List.head?_cons, Option.bind_some, hk] at hnone
    cases hnone
  | symbol hk =>
    cases hcs
    rw [h.symbol] at hk
    cases hk
  | decimal hwhole _ => exact digits hwhole (by rw [← hcs, List.append_assoc])
  | whole hwhole => exact digits hwhole hcs
  | fraction hfraction =>
    obtain ⟨d, fraction, rfl⟩ := List.exists_cons_of_ne_nil hfraction.1
    cases hcs
    exact (numberLength_pos_of_point (hfraction.2 d List.mem_cons_self) _).ne' h.number
  | text hquote hbody =>
    cases hcs
    have hlength := h.text hquote
    rw [List.append_eq, List.append_assoc, List.singleton_append,
      bodyLength?_of_isTextBody hquote.ne_slash hbody] at hlength
    cases hlength
  | name hc _ =>
    cases hcs
    rw [h.name] at hc
    cases hc

/-- **Where nothing is found there is no blank, and no word begins.** -/
theorem Lexeme.first?_eq_none {c : Char} {cs : List Char} (h : first? (c :: cs) = none) :
    isBlank c = false ∧ Wordless (c :: cs) :=
  have hfits := startingWith?_eq_none h
  ⟨hfits.blank, hfits.wordless⟩

end Rulebook

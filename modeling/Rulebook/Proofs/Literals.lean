/-
  Literals — the texts of values, read again.

  * `Token.standsFirst k text`, `behind text`: a word at the start of an input, as a token,
    and the place behind it; `scan_append` reads such a word and goes on from there.
  * `quotedText_is_one_token`: a quoted text is one token whatever follows it, so no
    character ends it early.
  * `Means.isFinite_or_infinity`: the numbers of a text are finite ones and infinity.
  * `number_literal_read`: the literal of a number of a text is read as the number where it
    is finite, and as a name where it is not.
-/
import Rulebook.Proofs.Places
import Rulebook.Proofs.ErrorPlaces

namespace Rulebook

open Text Number

/-! ## A word at the start -/

/-- A word at the start of an input, as a token. -/
def Token.standsFirst (k : TokenKind) (text : String) : Token := ⟨k, 0, 1, 1, text⟩

/-- The place behind a word at the start of an input. -/
def behind (text : String) : LineColumn := ⟨1, text.length + 1⟩

/-- Short of a line break only the columns are counted. -/
theorem placeAfter_of_unbroken {cs : List Char} (h : '\n' ∉ cs) :
    placeAfter cs = ⟨1, cs.length + 1⟩ := by
  have hline : lineBefore cs = cs :=
    List.rtakeWhile_eq_self_iff.2 fun c hc => by
      simp only [ne_eq, decide_eq_true_eq]
      rintro rfl
      exact h hc
  rw [placeAfter, hline, List.count_eq_zero.2 h]

section
variable {k : TokenKind} {text : String} (hline : '\n' ∉ text.toList)
include hline

theorem scan_append {rest : String} (hfirst : IsFirstWord k text.toList rest.toList) :
    scan (text ++ rest) =
      (.standsFirst k text :: (scanFrom text.length (behind text) rest.toList).1,
        (scanFrom text.length (behind text) rest.toList).2) := by
  have hplace : text.toList.foldl .advance LineColumn.first = behind text := by
    calc text.toList.foldl .advance LineColumn.first
        = placeAfter ([] ++ text.toList) := foldl_advance [] _
      _ = behind text := placeAfter_of_unbroken hline
  rw [scan, String.toList_append, hfirst.scanFrom, hplace, String.ofList_toList,
    String.length_toList, Nat.zero_add]
  rfl

/-- A word alone is one token, and the end of the input follows. -/
theorem tokenize_word (hfirst : IsFirstWord k text.toList []) :
    tokenize text = .ok [.standsFirst k text, .finishAt text.length (behind text)] := by
  have hscan : scan (text ++ "") = _ := scan_append hline hfirst
  rw [String.append_empty, String.toList_empty, scanFrom] at hscan
  exact tokenize_eq_ok_iff.2 hscan

end

/-! ## Texts -/

theorem escapeChar_unbroken (c : Char) : '\n' ∉ escapeChar c := by
  unfold escapeChar
  split
  iterate 5 decide
  next hbreak _ _ => simpa using fun h => hbreak h.symm

theorem quotedText_unbroken (s : String) : '\n' ∉ (quotedText s).toList := by
  simp [quotedText, escapeChar_unbroken]

/-- **No text can break out of its quotes.** Whatever follows its literal, the literal is
    the first token, it carries the text, and the rest is read from there on; alone it is
    that token and the end of the input, and as an expression it is the text. -/
theorem quotedText_is_one_token (s : String) :
    (∀ rest, scan (literalText (.text s) ++ rest) =
      (.standsFirst (.text s) (literalText (.text s)) ::
          (scanFrom (literalText (.text s)).length (behind (literalText (.text s)))
            rest.toList).1,
        (scanFrom (literalText (.text s)).length (behind (literalText (.text s)))
          rest.toList).2)) ∧
      tokenize (literalText (.text s)) = .ok [.standsFirst (.text s) (literalText (.text s)),
        .finishAt (literalText (.text s)).length (behind (literalText (.text s)))] ∧
      ∀ n, parse .expression (n + 1) (literalText (.text s)) =
        .ok (.literal (.text s) (some 0)) := by
  have hline : '\n' ∉ (literalText (.text s)).toList := quotedText_unbroken s
  have hfirst : ∀ rest, IsFirstWord (.text s) (literalText (.text s)).toList rest := .quoted s
  have htokens := tokenize_word hline (hfirst [])
  refine ⟨fun rest => scan_append hline (hfirst _), htokens, fun n => ?_⟩
  have hreads : ReadsAs (n + 1) .expression [.standsFirst (.text s) (literalText (.text s))]
      (.literal (.text s) (some 0)) := Phrase.of_primary (.literal rfl) (by simp)
  rw [parse, htokens]
  exact parseTokens_of_readsAs hreads rfl

/-! ## Numbers -/

theorem Means.eq_numeralValue {w : List Char} {x : Float} (h : Means w (.number x)) :
    x = numeralValue w := by
  generalize hk : TokenKind.number x = k at h
  cases h with
  | number _ => exact TokenKind.number.inj hk
  | text _ _ => cases hk
  | pair hpair =>
    subst hk
    unfold pairSymbol? at hpair
    split at hpair <;> cases hpair
  | symbol hsymbol =>
    subst hk
    unfold symbol? at hsymbol
    split at hsymbol <;> cases hsymbol
  | name _ _ =>
    unfold nameKind at hk
    split at hk <;> cases hk

theorem isFinite_or_infinity_numeralValue (cs : List Char) :
    isFinite (numeralValue cs) = true ∨ ∃ negative, numeralValue cs = infinity negative := by
  unfold numeralValue
  split
  · next d _ => exact (isFinite_or_infinity_toDouble d).imp_right fun h => ⟨_, h⟩
  · exact .inl (isFinite_iff.2 (by rw [zero, magnitudeBits_ofMagnitude (Nat.zero_le _)]; decide))

/-- A number of a text is not negative, and finite or infinity. -/
theorem Means.isFinite_or_infinity {w : List Char} {x : Float} (h : Means w (.number x)) :
    isNegative x = false ∧ (isFinite x = true ∨ x = infinity false) := by
  have hsign : isNegative x = false := h.lexical
  refine ⟨hsign, ?_⟩
  obtain hfinite | ⟨negative, hinfinite⟩ := isFinite_or_infinity_numeralValue w
  · exact .inl (h.eq_numeralValue ▸ hfinite)
  · have hx : x = infinity negative := h.eq_numeralValue.trans hinfinite
    have hnegative : negative = false := by
      rwa [hx, infinity, isNegative_ofMagnitude le_rfl] at hsign
    exact .inr (hnegative ▸ hx)

theorem Number.Spelled.unbroken {whole fraction cs : List Char} (h : Spelled whole fraction cs) :
    '\n' ∉ cs := by
  obtain ⟨rfl, -, hwhole, hfraction⟩ := h
  have hdigit : ∀ {ds : List Char}, Digits ds → '\n' ∉ ds :=
    fun hds hmem => absurd (hds _ hmem) (by decide)
  unfold spelled
  split_ifs
  · exact hdigit hwhole
  · simp [hdigit hwhole, hdigit hfraction]

theorem plainText_unbroken {x : Float} (hfinite : isFinite x = true)
    (hx : isNegative x = false) : '\n' ∉ (plainText x).toList := by
  obtain ⟨whole, fraction, cs, hspelled, htext, -⟩ := plainText_spelled hfinite
  rw [htext, hx]
  exact hspelled.unbroken

theorem plainText_infinity : plainText (infinity false) = "inf" := by decide +kernel

theorem isName_inf : IsName "inf" :=
  ⟨⟨'i', ['n', 'f'], rfl, rfl, List.all_eq_true.1 rfl⟩, rfl⟩

/-- The literal of infinity is read as a name. -/
theorem tokenize_infinity : tokenize (literalText (.number (infinity false))) =
    .ok [.standsFirst (.name "inf") "inf", .finishAt 3 (behind "inf")] := by
  have htext : literalText (.number (infinity false)) = "inf" := plainText_infinity
  rw [htext]
  exact tokenize_word (by decide) (.name isName_inf (by simp))

/-- **The numbers that a text holds are read again from their literals, but for infinity.**
    The literal of a finite one is one token, which carries the same number; a numeral too
    large for a double is infinity, and its literal is read as a name. -/
theorem number_literal_read {source : String} {t : Token} {x : Float}
    (ht : t ∈ (scan source).1) (hx : t.kind = .number x) :
    (isFinite x = true ∧ tokenize (literalText (.number x)) =
      .ok [.standsFirst (.number x) (literalText (.number x)),
        .finishAt (literalText (.number x)).length (behind (literalText (.number x)))]) ∨
    (x = infinity false ∧ tokenize (literalText (.number x)) =
      .ok [.standsFirst (.name "inf") "inf", .finishAt 3 (behind "inf")]) := by
  have hmeans := means_of_mem_scan ht (by simp [hx])
  rw [hx] at hmeans
  obtain ⟨hnegative, hfinite | rfl⟩ := hmeans.isFinite_or_infinity
  · exact .inl ⟨hfinite, tokenize_word (plainText_unbroken hfinite hnegative)
      (.plainText hfinite hnegative (by simp))⟩
  · exact .inr ⟨rfl, tokenize_infinity⟩

/-- A number with zeros at its end. -/
theorem twelveAndHalf_read :
    (⟨.number (numeralValue "12.50".toList), 0, 1, 1, "12.50"⟩ : Token) ∈ (scan "12.50").1 ∧
      tokenize "12.5" = .ok [.standsFirst (.number (numeralValue "12.50".toList)) "12.5",
        .finishAt 4 (behind "12.5")] := by
  have hmem : (⟨.number (numeralValue "12.50".toList), 0, 1, 1, "12.50"⟩ : Token) ∈
      (scan "12.50").1 := by decide +kernel
  refine ⟨hmem, ?_⟩
  have htext : literalText (.number (numeralValue "12.50".toList)) = "12.5" := by decide +kernel
  obtain ⟨-, hread⟩ | ⟨hinfinite, -⟩ := number_literal_read hmem rfl
  · rwa [htext] at hread
  · exact absurd hinfinite (by decide +kernel)

/-- The digits of a numeral beyond the doubles. -/
def oversizedDigits : List Char := '1' :: zeros 309

theorem spelled_oversizedDigits : Spelled oversizedDigits [] oversizedDigits := by
  refine ⟨rfl, by simp [oversizedDigits], ?_, by simp [Digits]⟩
  intro c hc
  rcases List.mem_cons.1 hc with rfl | hc
  · rfl
  · exact digits_zeros 309 c hc

/-- The numeral is one token, whose number is infinity, and the literal of that is a name. -/
theorem oversizedDigits_lost :
    tokenize (String.ofList oversizedDigits) =
        .ok [.standsFirst (.number (infinity false)) (String.ofList oversizedDigits),
          .finishAt (String.ofList oversizedDigits).length
            (behind (String.ofList oversizedDigits))] ∧
      tokenize (literalText (.number (infinity false))) =
        .ok [.standsFirst (.name "inf") "inf", .finishAt 3 (behind "inf")] := by
  refine ⟨?_, tokenize_infinity⟩
  have hvalue : numeralValue oversizedDigits = infinity false := by decide +kernel
  have hfirst : IsFirstWord (.number (numeralValue oversizedDigits)) oversizedDigits [] :=
    .number spelled_oversizedDigits.isNumeral (by simp)
  rw [hvalue] at hfirst
  refine tokenize_word ?_ ?_ <;> rw [String.toList_ofList]
  · exact spelled_oversizedDigits.unbroken
  · exact hfirst

end Rulebook

/-
  Locations — all lines and columns are those of the offsets in the text.

  * `parseTokens_error_at`: what is rejected is rejected at one of the tokens, or where
    every text begins.
  * `tokenize_tiled`, `tokenize_stopped`: the tokens of a text tile it, up to its end or
    up to the character at which none starts.
  * `locations_agree`: so tokens and errors of all stages stand where their offsets do,
    and a report shows them there.
-/
import Rulebook.Proofs.ErrorPlaces
import Rulebook.Proofs.Tiling

namespace Rulebook

open Text

variable {source : String}

/-! ## Tokens and errors at their places -/

theorem Token.IsPlacedIn.error {t : Token} (h : t.IsPlacedIn source) (c : Cause) :
    (t.error c).IsPlacedIn source := by
  refine ⟨t.position, h.1, ?_⟩
  rw [← h.2]
  rfl

theorem isPlacedIn_finish (source : String) :
    (Token.finishAt source.length (locate source source.length)).IsPlacedIn source :=
  ⟨Nat.le_refl _, rfl⟩

/-- The beginning of a text is where every text begins. -/
theorem isPlacedIn_unplacedFinish (source : String) : Token.unplacedFinish.IsPlacedIn source :=
  ⟨Nat.zero_le _, (@locate_eq source [] source.toList rfl).symm⟩

theorem currentToken_mem_or (ts : List Token) :
    currentToken ts ∈ ts ∨ currentToken ts = .unplacedFinish := by
  cases ts with
  | nil => exact .inr rfl
  | cons t rest => exact .inl List.mem_cons_self

/-- What is rejected is rejected at one of the tokens, or where every text begins. -/
theorem parseTokens_error_at {mode : Mode} {n : ℕ} {ts : List Token} {e : ExpressionError}
    (h : parseTokens mode n ts = .error e) :
    ∃ t c, (t ∈ ts ∨ t = .unplacedFinish) ∧ e = t.error c := by
  have hcurrent : ∀ {w rest}, ts = w ++ rest →
      currentToken rest ∈ ts ∨ currentToken rest = .unplacedFinish := fun hts =>
    (currentToken_mem_or _).imp_left fun hmem => hts ▸ List.mem_append_right _ hmem
  rw [parseTokens_eq] at h
  split_ifs at h
  · cases h
    exact ⟨_, _, .inr rfl, rfl⟩
  cases hy : outcome (readMode mode n ts) with
  | error e' =>
    -- for its nesting, too, a reader fails at a token
    rw [hy] at h
    cases h
    obtain ⟨w, rest, c, hts, he, -⟩ := (pointsAt_readMode mode (Nat.le_refl n) ts).fails hy
    exact ⟨_, c, hcurrent hts, he⟩
  | ok y =>
    obtain ⟨x, rest⟩ := y
    obtain ⟨w, hts, -⟩ := (pointsAt_readMode mode (Nat.le_refl n) ts).reads hy
    rw [hy, ok_bind] at h
    split_ifs at h
    · cases h
    · cases h
      exact ⟨_, _, hcurrent hts, rfl⟩

/-! ## The tokens of a text -/

/-- Tokens tile a text: nothing of it is lost or read twice, but for blanks between. -/
structure Tiled (cs : List Char) (ts : List Token) : Prop where
  tiles : Tiles 0 ts cs
  slices : ∀ t ∈ ts, t.lexeme.toList = (cs.drop t.position).take t.lexeme.length
  increasing : ts.Pairwise fun t u => t.position < u.position

theorem Tiles.tiled {ts : List Token} {cs : List Char} (h : Tiles 0 ts cs) : Tiled cs ts :=
  ⟨h, h.slice, h.increasing⟩

theorem scan_scanned (source : String) :
    Scanned source 0 source.toList (scan source).1 (scan source).2 :=
  @scanFrom_scanned source [] source.toList rfl

theorem tokenize_eq_error_iff {e : ExpressionError} :
    tokenize source = .error e ↔ (scan source).2 = some e := by
  unfold tokenize
  split <;> simp_all

/-- The tokens of a text tile it, and the end of the input stands behind its last
    character. -/
theorem tokenize_tiled {ts : List Token} (h : tokenize source = .ok ts) :
    ∃ w, ts = w ++ [.finishAt source.length (locate source source.length)] ∧
      Tiled source.toList w ∧ ∀ t ∈ ts, t.IsPlacedIn source := by
  have hscanned := scan_scanned source
  rw [tokenize_eq_ok_iff.1 h] at hscanned
  cases hscanned with
  | @finished w htiles hplaced =>
    refine ⟨w, rfl, htiles.tiled, fun t ht => ?_⟩
    rcases List.mem_append.1 ht with ht | ht
    · exact hplaced t ht
    · rw [List.mem_singleton.1 ht]
      exact isPlacedIn_finish source

theorem kind_misfit_iff {c : Char} : (misfit c).kind = .unterminatedString ↔ IsQuote c := by
  unfold misfit IsQuote
  split_ifs with h
  · simpa [Cause.kind] using h
  · simpa [Cause.kind] using h

/-- An error of scanning is at the first character behind the tokens at which there is
    no blank and no word begins. -/
theorem tokenize_stopped {e : ExpressionError} (h : tokenize source = .error e) :
    ∃ done c rest, source.toList = done ++ c :: rest ∧ Tiled done (scan source).1 ∧
      (∀ t ∈ (scan source).1, t.IsPlacedIn source) ∧ isBlank c = false ∧ Wordless (c :: rest) ∧
      e = .atPlace (misfit c) done.length (locate source done.length) := by
  have hscanned := scan_scanned source
  rw [tokenize_eq_error_iff.1 h] at hscanned
  generalize (scan source).1 = ts at hscanned ⊢
  cases hscanned with
  | @stopped _ done c rest hsource htiles hplaced hblank hwordless =>
    refine ⟨done, c, rest, hsource, htiles.tiled, hplaced, hblank, hwordless, ?_⟩
    rw [Nat.zero_add]

/-! ## Errors of all stages -/

theorem isPlacedIn_of_stopped {cause : Cause} {done rest : List Char} {c : Char}
    (h : source.toList = done ++ c :: rest) :
    (ExpressionError.atPlace cause done.length (locate source done.length)).IsPlacedIn source := by
  refine ⟨done.length, ?_, rfl⟩
  rw [← String.length_toList, h, List.length_append]
  exact Nat.le_add_right _ _

/-- **An error of a text stands in it.** -/
theorem parse_error_isPlacedIn {mode : Mode} {limit : ℕ} {e : ExpressionError}
    (h : parse mode limit source = .error e) : e.IsPlacedIn source := by
  cases hts : tokenize source with
  | error e' =>
    rw [parse, hts] at h
    cases h
    obtain ⟨done, c, rest, hsource, -, -, -, -, rfl⟩ := tokenize_stopped hts
    exact isPlacedIn_of_stopped hsource
  | ok ts =>
    rw [parse, hts, ok_bind] at h
    obtain ⟨w, -, -, hplaced⟩ := tokenize_tiled hts
    obtain ⟨t, c, ht, rfl⟩ := parseTokens_error_at h
    rcases ht with ht | rfl
    · exact (hplaced t ht).error c
    · exact (isPlacedIn_unplacedFinish source).error c

/-- **Locations agree everywhere.** The tokens of a text tile it, with the end of the
    input at its end. Where scanning fails, the text is tiled up to the offset of the
    error; there is no blank and no word begins there, and what is wrong is that a text
    does not close exactly if a quote stands there. The line and the column of every
    token and of every error, of scanning or of reading a script or an expression, are
    those that are found at its offset, which lies within the text. A report shows the
    line that holds the offset, with a caret under its column. -/
theorem locations_agree (source : String) :
    (∀ ts, tokenize source = .ok ts →
      ∃ w, ts = w ++ [.finishAt source.length (locate source source.length)] ∧
        Tiled source.toList w ∧ ∀ t ∈ ts, t.IsPlacedIn source) ∧
    (∀ e, tokenize source = .error e →
      ∃ done c rest, source.toList = done ++ c :: rest ∧ e.position = some done.length ∧
        Tiled done (scan source).1 ∧ (∀ t ∈ (scan source).1, t.IsPlacedIn source) ∧
        isBlank c = false ∧ Wordless (c :: rest) ∧
        (e.cause.kind = .unterminatedString ↔ IsQuote c)) ∧
    ∀ e, tokenize source = .error e ∨ (∃ mode limit, parse mode limit source = .error e) →
      e.IsPlacedIn source ∧ ∃ p before line after, e.IsShownIn source p before line after := by
  refine ⟨fun ts => tokenize_tiled, fun e he => ?_, fun e he => ?_⟩
  · obtain ⟨done, c, rest, hsource, htiled, hplaced, hblank, hwordless, rfl⟩ :=
      tokenize_stopped he
    exact ⟨done, c, rest, hsource, rfl, htiled, hplaced, hblank, hwordless, kind_misfit_iff⟩
  · have hplaced : e.IsPlacedIn source := by
      rcases he with he | ⟨mode, limit, he⟩
      · have hparse : parse .script 0 source = .error e := by
          rw [parse, he]
          rfl
        exact parse_error_isPlacedIn hparse
      · exact parse_error_isPlacedIn he
    exact ⟨hplaced, hplaced.isShownIn⟩

/-- A sum on three lines, with a text that holds a line break, that lacks an operand. -/
def brokenSum : String := "total =\n  \"a\nb\" + )"

/-- What is wrong with the sum, on its third line. -/
def brokenSumError : ExpressionError := .atPlace (.unexpectedToken ")") 18 ⟨3, 6⟩

/-- The sum is tiled by its tokens, and its report shows what stands at the end. -/
theorem brokenSum_located :
    (∃ ts, tokenize brokenSum = .ok ts ∧ Tiled brokenSum.toList ts.dropLast) ∧
      parse .script 64 brokenSum = .error brokenSumError ∧
      brokenSumError.IsPlacedIn brokenSum ∧
      ∃ before line after, brokenSumError.IsShownIn brokenSum 18 before line after := by
  have hagree := locations_agree brokenSum
  have hparse : parse .script 64 brokenSum = .error brokenSumError := by
    have hcheck : (match parse .script 64 brokenSum with
        | .error e => decide (e = brokenSumError)
        | .ok _ => false) = true := by decide +kernel
    cases h : parse .script 64 brokenSum with
    | ok x =>
      rw [h] at hcheck
      cases hcheck
    | error e =>
      rw [h] at hcheck
      rw [of_decide_eq_true hcheck]
  have hok : (tokenize brokenSum).isOk = true := by decide +kernel
  cases hts : tokenize brokenSum with
  | error e =>
    rw [hts] at hok
    cases hok
  | ok ts =>
    obtain ⟨w, rfl, htiled, -⟩ := hagree.1 ts hts
    obtain ⟨hplaced, p, before, line, after, hshown⟩ := hagree.2.2 _ (.inr ⟨_, _, hparse⟩)
    obtain rfl : 18 = p := Option.some.inj hshown.position
    refine ⟨⟨_, rfl, ?_⟩, hparse, hplaced, before, line, after, hshown⟩
    rwa [List.dropLast_concat]

end Rulebook

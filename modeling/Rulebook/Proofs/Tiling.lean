/-
  Tiling — the tokens of a text cover it, but for the blanks between them.

  * `Tiles p ts cs`: the tokens lie in the text, which starts at the offset `p`, one
    after another, each the text at its place, with nothing but blanks between.
  * `Tiles.slice`, `Tiles.increasing`: so each token is what the text holds at its
    offset, and the offsets grow.
  * `Scanned`: what is found in a part of a text is a tiling of it up to its end, or up
    to a character at which there is no blank and no word begins.
  * `scanFrom_scanned`: so it is from any offset on, where the lines and columns are
    counted from the place of the offset.
-/
import Rulebook.Proofs.Places
import Rulebook.Proofs.Scanning

namespace Rulebook

open Text

/-! ## Tilings -/

/-- Tokens that lie in a text that starts at an offset, one after another, with nothing
    but blanks between them and after the last. -/
inductive Tiles : ℕ → List Token → List Char → Prop
  | gap {p gap} : (∀ c ∈ gap, isBlank c = true) → Tiles p [] gap
  | token {p gap t ts rest} : (∀ c ∈ gap, isBlank c = true) →
      t.position = p + gap.length → IsWord t.lexeme.toList →
      Tiles (t.position + t.lexeme.length) ts rest →
      Tiles p (t :: ts) (gap ++ (t.lexeme.toList ++ rest))

section
variable {p : ℕ} {ts : List Token} {cs : List Char}

theorem Tiles.blanks {w : List Char} (hw : ∀ c ∈ w, isBlank c = true)
    (h : Tiles (p + w.length) ts cs) : Tiles p ts (w ++ cs) := by
  have hall : ∀ {gap : List Char}, (∀ c ∈ gap, isBlank c = true) →
      ∀ c ∈ w ++ gap, isBlank c = true :=
    fun hgap c hc => (List.mem_append.1 hc).elim (hw c) (hgap c)
  cases h with
  | gap hgap => exact .gap (hall hgap)
  | @token _ gap t ts rest hgap hposition hword hrest =>
    rw [← List.append_assoc]
    refine .token (hall hgap) ?_ hword hrest
    rw [hposition, List.length_append, Nat.add_assoc]

theorem Tiles.cons {t : Token} (hword : IsWord t.lexeme.toList)
    (h : Tiles (t.position + t.lexeme.length) ts cs) :
    Tiles t.position (t :: ts) (t.lexeme.toList ++ cs) :=
  @Tiles.token _ [] _ _ _ (by simp) rfl hword h

theorem Tiles.le (h : Tiles p ts cs) : ∀ t ∈ ts, p ≤ t.position := by
  induction h with
  | gap => simp
  | token _ hposition _ _ ih =>
    rintro u (_ | ⟨_, hu⟩)
    · omega
    · have := ih u hu
      omega

theorem IsWord.length_pos {t : Token} (h : IsWord t.lexeme.toList) : 0 < t.lexeme.length := by
  rw [← String.length_toList]
  exact List.length_pos_iff.2 h.ne_nil

theorem Tiles.increasing (h : Tiles p ts cs) : ts.Pairwise fun t u => t.position < u.position := by
  induction h with
  | gap => exact .nil
  | token _ _ hword hrest ih =>
    refine .cons (fun u hu => ?_) ih
    have := hrest.le u hu
    have := hword.length_pos
    omega

theorem Tiles.slice (h : Tiles p ts cs) : ∀ t ∈ ts,
    t.lexeme.toList = (cs.drop (t.position - p)).take t.lexeme.length := by
  induction h with
  | gap => simp
  | @token p gap t ts rest _ hposition _ hrest ih =>
    rintro u (_ | ⟨_, hu⟩)
    · have hdrop : t.position - p = gap.length := by omega
      rw [hdrop, List.drop_left, ← String.length_toList, List.take_left]
    · have hle := hrest.le u hu
      have hdrop : u.position - p =
          gap.length + (t.lexeme.toList.length + (u.position - (t.position + t.lexeme.length))) := by
        rw [String.length_toList]
        omega
      rw [hdrop, ← List.drop_drop, List.drop_left, ← List.drop_drop, List.drop_left]
      exact ih u hu

end

/-! ## What scanning finds -/

/-- A token stands at an offset of a text, with the line and column of the offset. -/
def Token.IsPlacedIn (source : String) (t : Token) : Prop :=
  t.position ≤ source.length ∧ ⟨t.line, t.column⟩ = locate source t.position

/-- What is found in the last part of a text, from an offset on: tokens up to the end,
    or an error at the first character at which none starts. -/
inductive Scanned (source : String) (p : ℕ) (cs : List Char) :
    List Token → Option ExpressionError → Prop
  | finished {ts} : Tiles p ts cs → (∀ t ∈ ts, t.IsPlacedIn source) →
      Scanned source p cs
        (ts ++ [.finishAt source.length (locate source source.length)]) none
  | stopped {ts done c rest} : cs = done ++ c :: rest → Tiles p ts done →
      (∀ t ∈ ts, t.IsPlacedIn source) → isBlank c = false → Wordless (c :: rest) →
      Scanned source p cs ts
        (some (.atPlace (misfit c) (p + done.length) (locate source ↑(p + done.length))))

section
variable {source : String} {p : ℕ} {cs : List Char} {ts : List Token}
  {error : Option ExpressionError}

theorem Scanned.blanks {w : List Char} (hw : ∀ c ∈ w, isBlank c = true)
    (h : Scanned source (p + w.length) cs ts error) : Scanned source p (w ++ cs) ts error := by
  cases h with
  | finished htiles hplaced => exact .finished (htiles.blanks hw) hplaced
  | @stopped _ done c rest hcs htiles hplaced hblank hwordless =>
    rw [Nat.add_assoc, ← List.length_append]
    exact .stopped (by rw [hcs, List.append_assoc]) (htiles.blanks hw) hplaced hblank hwordless

theorem Scanned.token {t : Token} (hword : IsWord t.lexeme.toList)
    (hplaced : t.IsPlacedIn source)
    (h : Scanned source (t.position + t.lexeme.length) cs ts error) :
    Scanned source t.position (t.lexeme.toList ++ cs) (t :: ts) error := by
  cases h with
  | @finished ts htiles hts =>
    exact .finished (htiles.cons hword) (List.forall_mem_cons.2 ⟨hplaced, hts⟩)
  | @stopped _ done c rest hcs htiles hts hblank hwordless =>
    have hlength : t.position + t.lexeme.length + done.length =
        t.position + (t.lexeme.toList ++ done).length := by
      rw [List.length_append, String.length_toList, Nat.add_assoc]
    rw [hlength]
    exact .stopped (by rw [hcs, List.append_assoc]) (htiles.cons hword)
      (List.forall_mem_cons.2 ⟨hplaced, hts⟩) hblank hwordless

end

/-- What is read from an offset on is a tiling of the rest of the text. -/
theorem scanFrom_scanned {source : String} {before cs : List Char}
    (hsource : source.toList = before ++ cs) :
    Scanned source before.length cs (scanFrom before.length (placeAfter before) cs).1
      (scanFrom before.length (placeAfter before) cs).2 := by
  induction h : cs.length using Nat.strong_induction_on generalizing before cs with
  | _ n ih =>
    subst h
    -- the place that is counted is the one of the offset, whatever is read there
    have hplace : locate source before.length = placeAfter before := locate_eq hsource
    have hle : before.length ≤ source.length := by
      rw [← String.length_toList, hsource, List.length_append]
      omega
    cases cs with
    | nil =>
      have hlength : before.length = source.length := by
        rw [← String.length_toList, hsource, List.append_nil]
      rw [scanFrom, ← hplace, hlength]
      exact .finished (.gap (by simp)) (by simp)
    | cons c cs =>
      cases hl : Lexeme.first? (c :: cs) with
      | none =>
        rw [scanFrom_misfit hl, ← hplace]
        obtain ⟨hblank, hwordless⟩ := Lexeme.first?_eq_none hl
        exact @Scanned.stopped _ _ _ _ [] _ _ rfl (.gap (by simp)) (by simp) hblank hwordless
      | some l =>
        obtain ⟨w, rest, hcs, hw, hreads⟩ := Lexeme.first?_eq_some hl
        have hshort : rest.length < (c :: cs).length := by
          have := l.pos
          rw [hcs, List.length_append]
          omega
        have htake : (c :: cs).take l.length = w := by rw [hcs, ← hw, List.take_left]
        have hdrop : (c :: cs).drop l.length = rest := by rw [hcs, ← hw, List.drop_left]
        have hafter : source.toList = before ++ w ++ rest := by
          rw [hsource, hcs, List.append_assoc]
        -- the rest is read from the place after the lexeme
        have hrest := ih _ hshort hafter rfl
        rw [List.length_append, ← foldl_advance] at hrest
        cases hreads with
        | blank hk hblank =>
          rw [scanFrom_blanks hl hk, htake, hdrop, hcs]
          exact hrest.blanks hblank
        | @word k hk hword =>
          generalize hscan : scanFrom (before.length + w.length)
            (w.foldl .advance (placeAfter before)) rest = found at hrest
          obtain ⟨ts, error⟩ := found
          rw [scanFrom_token hl hk _ _ (by rw [htake, hdrop, hscan]), htake, hcs, ← hplace]
          let t : Token := ⟨k, before.length, (locate source before.length).line,
            (locate source before.length).column, String.ofList w⟩
          have hlexeme : t.lexeme.toList = w := String.toList_ofList
          have hlength : t.lexeme.length = w.length := by rw [← String.length_toList, hlexeme]
          have hfound : Scanned source t.position (t.lexeme.toList ++ rest) (t :: ts) error :=
            Scanned.token (hlexeme ▸ hword) ⟨hle, rfl⟩ (by rw [hlength]; exact hrest)
          rwa [hlexeme] at hfound

end Rulebook

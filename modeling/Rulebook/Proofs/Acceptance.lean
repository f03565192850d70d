/-
  Acceptance — the texts that are accepted, and the one tree of each.

  * `recognizesFrames_frame`: the parser's frames recognize those of the grammar, by
    induction on the nesting that is allowed; `parseTokens_eq_ok_iff` carries this
    to whole texts.
  * `Phrase.mono`: what is nested at most `m` deep is nested at most `n` deep for
    `m ≤ n`.
  * `Derives.unique`: a text has at most one tree, however deep the derivations
    are allowed to nest.
  * `parseTokens_iff_derives`: on the tokens of a text the parser gives exactly
    the tree that the grammar derives, and there is no other.
-/
import Rulebook.Proofs.Statements
import Rulebook.Proofs.Scanning

namespace Rulebook

/-! ## Frames and whole texts -/

/-- **The parser's frames recognize those of the grammar.** -/
theorem recognizesFrames_frame (limit : ℕ) :
    ∀ n, RecognizesFrames (frame limit n) (Phrase n) := by
  intro n
  induction n with
  | zero =>
    refine ⟨fun f => ⟨fun ho => ?_, fun hw => hw.elim⟩, fun hw => hw.elim, fun ho => ?_⟩
    · simp at ho
    · simp at ho
  | succ n ih =>
    have hclosed : ∀ {w x}, Phrase n .expression w x → x.isOpen = false := fun hx =>
      Node.isOpen_of_isExpression (Phrase.isExpression (by simp) hx)
    refine ⟨fun f => ?_, Phrase.begins, fun ho => ?_⟩
    · cases f with
      | statement =>
        rw [frame_statement]
        exact ⟨fun ho => (statementBody_sound ih hclosed ho).1, statementBody_complete ih⟩
      | expression => rw [frame_expression]; exact recognizes_tiers ih
      | operand => rw [frame_operand]; exact recognizes_unaryOperation ih
      | exponent => rw [frame_exponent]; exact recognizes_powerOperation ih
    · rw [frame_statement] at ho
      exact (statementBody_sound ih hclosed ho).2

theorem derives_script_iff {n : ℕ} {ts : List Token} {x : Node} :
    Derives n .script ts x ↔ ∃ w xs e, ts = w ++ [e] ∧ e.kind = .finish ∧
      Statements (Phrase n .statement) w xs ∧ x = asScript xs := by
  constructor
  · rintro (⟨hxs, he⟩ | _)
    exact ⟨_, _, _, rfl, he, hxs, rfl⟩
  · rintro ⟨w, xs, e, rfl, he, hxs, rfl⟩
    exact .script hxs he

theorem derives_expression_iff {n : ℕ} {ts : List Token} {x : Node} :
    Derives n .expression ts x ↔
      ∃ w e, ts = w ++ [e] ∧ e.kind = .finish ∧ Phrase n .expression w x := by
  constructor
  · rintro (_ | ⟨hx, he⟩)
    exact ⟨_, _, rfl, he, hx⟩
  · rintro ⟨w, e, rfl, he, hx⟩
    exact .expression hx he

/-- What is read in a mode, followed by whatever it leaves. -/
def ReadsAs (n : ℕ) : Mode → Language Node
  | .script => fun w x => ∃ xs, Statements (Phrase n .statement) w xs ∧ x = asScript xs
  | .expression => Phrase n .expression

theorem derives_iff {mode : Mode} {n : ℕ} {ts : List Token} {x : Node} :
    Derives n mode ts x ↔ ∃ w e, ts = w ++ [e] ∧ e.kind = .finish ∧ ReadsAs n mode w x := by
  cases mode with
  | script =>
    rw [derives_script_iff]
    constructor
    · rintro ⟨w, xs, e, hts, he, hxs, hx⟩
      exact ⟨w, e, hts, he, xs, hxs, hx⟩
    · rintro ⟨w, e, hts, he, xs, hxs, hx⟩
      exact ⟨w, xs, e, hts, he, hxs, hx⟩
  | expression => exact derives_expression_iff

theorem readMode_sound {mode : Mode} {n : ℕ} {ts rest : List Token} {x : Node}
    (ho : outcome (readMode mode n ts) = .ok (x, rest)) :
    ∃ w, ts = w ++ rest ∧ ReadsAs n mode w x := by
  have hframes := recognizesFrames_frame n n
  cases mode with
  | script =>
    rw [outcome_readMode_script, bind_eq_ok] at ho
    obtain ⟨⟨xs, left⟩, hxs, ho⟩ := ho
    cases ho
    obtain ⟨w, rfl, hw⟩ := statements_sound hframes hxs
    exact ⟨w, rfl, xs, hw, rfl⟩
  | expression => exact (hframes.frame .expression).sound ho

theorem readMode_complete {mode : Mode} {n : ℕ} {w : List Token} {x : Node} {e : Token}
    (hw : ReadsAs n mode w x) (he : e.kind = .finish) (rest : List Token) :
    outcome (readMode mode n (w ++ e :: rest)) = .ok (x, e :: rest) := by
  have hframes := recognizesFrames_frame n n
  cases mode with
  | script =>
    obtain ⟨xs, hxs, rfl⟩ := hw
    have hend : endsStatements false (nextKind (e :: rest)) := .inl he
    rw [outcome_readMode_script, statements_complete hframes false hxs hend]
    rfl
  | expression =>
    refine (hframes.frame .expression).complete hw ?_
    simp [Frame.continues, TokenKind.continuesExpression, he, TokenKind.binary?]

theorem ReadsAs.begins {mode : Mode} {n : ℕ} {w : List Token} {x : Node}
    (h : ReadsAs n mode w x) : Begins TokenKind.beginsStatement w := by
  cases mode with
  | script =>
    obtain ⟨xs, hxs, -⟩ := h
    exact hxs.begins (recognizesFrames_frame n n)
  | expression =>
    exact (Phrase.begins h).mono fun k (hk : k.beginsExpression = true) => by
      simp [TokenKind.beginsStatement, hk]

theorem ReadsAs.endless {mode : Mode} {n : ℕ} {w : List Token} {x : Node}
    (h : ReadsAs n mode w x) : Endless w := by
  cases mode with
  | script =>
    obtain ⟨xs, hxs, -⟩ := h
    exact hxs.endless Phrase.endless
  | expression => exact Phrase.endless h

/-- What follows the last token at which a text could end. -/
theorem rest_of_atFinish {ts w rest : List Token} {e : Token} (hts : Endless ts)
    (hw : Endless w) (he : e.kind = .finish) (h : ts ++ [e] = w ++ rest)
    (hr : atFinish rest = true) : w = ts ∧ rest = [e] := by
  rcases List.append_eq_append_iff.1 h with ⟨v, rfl, hv⟩ | ⟨v, rfl, hv⟩
  · cases v with
    | nil => exact ⟨by simp, hv.symm⟩
    | cons t v =>
      simp only [List.cons_append, List.cons.injEq] at hv
      exact absurd (hv.1 ▸ he) (hw t (by simp))
  · cases v with
    | nil => exact ⟨by simp, by simpa using hv⟩
    | cons t v =>
      subst hv
      exact absurd (of_decide_eq_true hr) (hts t (by simp))

theorem parseTokens_eq_ok_iff {mode : Mode} {n : ℕ} {ts : List Token} {e : Token} {x : Node}
    (hts : Endless ts) (he : e.kind = .finish) :
    parseTokens mode n (ts ++ [e]) = .ok x ↔ Derives n mode (ts ++ [e]) x := by
  rw [parseTokens_eq, derives_iff]
  constructor
  · intro h
    split_ifs at h with hempty
    rw [bind_eq_ok] at h
    obtain ⟨⟨y, rest⟩, hy, h⟩ := h
    split_ifs at h with hend
    cases h
    obtain ⟨w, hw, hx⟩ := readMode_sound hy
    obtain ⟨rfl, rfl⟩ := rest_of_atFinish hts hx.endless he hw hend
    exact ⟨w, e, rfl, he, hx⟩
  · rintro ⟨w, e', hw, he', hx⟩
    obtain ⟨rfl, hee⟩ := List.append_inj' hw rfl
    obtain rfl : e = e' := by simpa using hee
    have hne : atFinish (ts ++ [e]) = false := decide_eq_false
      (TokenKind.beginsStatement_ne (hx.begins.append [e]).nextKind).1
    have hfin : atFinish [e] = true := decide_eq_true he
    rw [hne, readMode_complete hx he]
    simp only [Bool.false_eq_true, if_false, ok_bind, hfin, if_true]
    rfl

/-! ## More room for nesting -/

theorem Separated.mono {kind : TokenKind} {L L' : Language Node}
    (hL : ∀ {w x}, L w x → L' w x) {w : List Token} {xs : List Node}
    (h : Separated kind L w xs) : Separated kind L' w xs := by
  induction h with
  | one hx => exact .one (hL hx)
  | more hx ht _ ih => exact .more (hL hx) ht ih

theorem Chain.mono {tier : Tier} {L L' : Language Node} (hL : ∀ {w x}, L w x → L' w x)
    {w : List Token} {x : Node} (h : Chain tier L w x) : Chain tier L' w x := by
  induction h with
  | single hx => exact .single (hL hx)
  | step _ ht hy ih => exact .step ih ht (hL hy)

theorem Statements.mono {L L' : Language Node} (hL : ∀ {w x}, L w x → L' w x)
    {w : List Token} {xs : List Node} (h : Statements L w xs) : Statements L' w xs := by
  induction h with
  | last hx => exact .last (hL hx)
  | lastEnded hx ht => exact .lastEnded (hL hx) ht
  | more hx ht _ ih => exact .more (hL hx) ht ih

section
variable {inner inner' : Frame → Language Node} (hinner : ∀ {f w x}, inner f w x → inner' f w x)
  {w : List Token} {x : Node}
include hinner

theorem Primary.mono (h : Primary inner w x) : Primary inner' w x := by
  cases h with
  | literal hl => exact .literal hl
  | reference hn => exact .reference hn
  | emptyCall hn hl hr => exact .emptyCall hn hl hr
  | call hn hl hr hxs => exact .call hn hl hr (hxs.mono hinner)
  | group hl hr hx => exact .group hl hr (hinner hx)

theorem Unary.mono (h : Unary inner w x) : Unary inner' w x := by
  cases h with
  | primary hx => exact .primary (hx.mono hinner)
  | operation ht hx => exact .operation ht (hinner hx)

theorem Power.mono (h : Power inner w x) : Power inner' w x := by
  cases h with
  | base hx => exact .base (hx.mono hinner)
  | power hx ht hy => exact .power (hx.mono hinner) ht (hinner hy)

theorem Expression.mono (h : Expression inner w x) : Expression inner' w x := by
  unfold Expression at h ⊢
  exact h.mono <| Chain.mono <| Chain.mono <| Chain.mono <| Chain.mono <| Chain.mono <|
    Power.mono hinner

theorem Statement.mono (h : Statement inner w x) : Statement inner' w x := by
  cases h with
  | when hi hc ht hx => exact .when hi (hinner hc) ht (hinner hx)
  | choice hi hc ht hx hopen he hy =>
    exact .choice hi (hinner hc) ht (hinner hx) hopen he (hinner hy)
  | loop hl hc hd hx => exact .loop hl (hinner hc) hd (hinner hx)
  | log hl hx => exact .log hl (hinner hx)
  | emptyBlock hb he => exact .emptyBlock hb he
  | block hb hxs he => exact .block hb (hxs.mono hinner) he
  | assignment ht hs hx => exact .assignment ht hs (hinner hx)
  | expression hs hx => exact .expression hs (hinner hx)

end

theorem Phrase.succ {n : ℕ} : ∀ {f : Frame} {w : List Token} {x : Node},
    Phrase n f w x → Phrase (n + 1) f w x := by
  induction n with
  | zero => exact fun h => h.elim
  | succ n ih =>
    intro f w x h
    cases f with
    | statement => exact Statement.mono ih h
    | expression => exact Expression.mono ih h
    | operand => exact Unary.mono ih h
    | exponent => exact Power.mono ih h

/-- **What nests within a bound nests within a larger one.** -/
theorem Phrase.mono {m n : ℕ} (hmn : m ≤ n) {f : Frame} {w : List Token} {x : Node}
    (h : Phrase m f w x) : Phrase n f w x := by
  induction hmn with
  | refl => exact h
  | step _ ih => exact ih.succ

theorem Derives.mono {m n : ℕ} (hmn : m ≤ n) {mode : Mode} {ts : List Token} {x : Node}
    (h : Derives m mode ts x) : Derives n mode ts x := by
  cases h with
  | script hxs he => exact .script (hxs.mono (Phrase.mono hmn)) he
  | expression hx he => exact .expression (hx.mono hmn) he

/-! ## One tree -/

/-- A derived text ends with its first end of the input. -/
theorem Derives.ends {n : ℕ} {mode : Mode} {ts : List Token} {x : Node}
    (h : Derives n mode ts x) : ∃ w e, ts = w ++ [e] ∧ Endless w ∧ e.kind = .finish := by
  obtain ⟨w, e, hts, he, hx⟩ := derives_iff.1 h
  exact ⟨w, e, hts, hx.endless, he⟩

/-- **A text has at most one tree.** The parser reads both derivations under the
    larger of their bounds, and it gives one result. -/
theorem Derives.unique {m n : ℕ} {mode : Mode} {ts : List Token} {x y : Node}
    (hx : Derives m mode ts x) (hy : Derives n mode ts y) : x = y := by
  obtain ⟨w, e, rfl, hw, he⟩ := hx.ends
  have hx' := (parseTokens_eq_ok_iff hw he).2 (hx.mono (Nat.le_max_left m n))
  have hy' := (parseTokens_eq_ok_iff hw he).2 (hy.mono (Nat.le_max_right m n))
  rw [hx'] at hy'
  cases hy'
  rfl

/-! ## The tokens of a text -/

theorem parseTokens_tokenize {source : String} {ts : List Token} (h : tokenize source = .ok ts)
    {mode : Mode} {n : ℕ} {x : Node} :
    parseTokens mode n ts = .ok x ↔ Derives n mode ts x := by
  obtain ⟨w, e, rfl, he, hw⟩ := tokenize_lexical h
  exact parseTokens_eq_ok_iff hw.endless he

theorem parse_eq_ok_iff {mode : Mode} {n : ℕ} {source : String} {x : Node} :
    parse mode n source = .ok x ↔ ∃ ts, tokenize source = .ok ts ∧ Derives n mode ts x := by
  rw [parse, bind_eq_ok]
  constructor
  · rintro ⟨ts, hts, hx⟩
    exact ⟨ts, hts, (parseTokens_tokenize hts).1 hx⟩
  · rintro ⟨ts, hts, hx⟩
    exact ⟨ts, hts, (parseTokens_tokenize hts).2 hx⟩

theorem isExpression_of_parse {n : ℕ} {source : String} {x : Node}
    (h : parse .expression n source = .ok x) : x.isExpression = true := by
  obtain ⟨ts, -, hx⟩ := parse_eq_ok_iff.1 h
  obtain ⟨w, e, -, -, hw⟩ := derives_expression_iff.1 hx
  exact hw.isExpression (by simp)

/-- **The parser accepts exactly the grammar.** On the tokens of a text, and
    whatever nesting is allowed, it gives a tree if and only if the grammar
    derives this tree within that nesting; tokens that it accepts derive no other
    tree, under any bound. -/
theorem parseTokens_iff_derives {source : String} {ts : List Token}
    (h : tokenize source = .ok ts) (mode : Mode) (n : ℕ) :
    (∀ x, parseTokens mode n ts = .ok x ↔ Derives n mode ts x) ∧
      ∀ x, parseTokens mode n ts = .ok x → ∃! y, ∃ m, Derives m mode ts y := by
  refine ⟨fun x => parseTokens_tokenize h, fun x hx => ⟨x, ?_, ?_⟩⟩
  · exact ⟨n, (parseTokens_tokenize h).1 hx⟩
  · rintro y ⟨m, hy⟩
    exact hy.unique ((parseTokens_tokenize h).1 hx)

/-- An `ELSE` after two `IF`s leaves one tree. -/
theorem dangling_else_unambiguous :
    tokenize "IF a THEN IF b THEN c ELSE d" = .ok (scan "IF a THEN IF b THEN c ELSE d").1 ∧
      ∃! x, ∃ n, Derives n .script (scan "IF a THEN IF b THEN c ELSE d").1 x := by
  have hts : tokenize "IF a THEN IF b THEN c ELSE d" =
      .ok (scan "IF a THEN IF b THEN c ELSE d").1 := by decide +kernel
  have hok : (parseTokens .script 4 (scan "IF a THEN IF b THEN c ELSE d").1).isOk := by
    decide +kernel
  cases hx : parseTokens .script 4 (scan "IF a THEN IF b THEN c ELSE d").1 with
  | error e =>
    rw [hx] at hok
    cases hok
  | ok x => exact ⟨hts, (parseTokens_iff_derives hts .script 4).2 x hx⟩

end Rulebook

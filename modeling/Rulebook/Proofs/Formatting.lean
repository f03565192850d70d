/-
  Formatting — texts of the same words are parsed alike.

  * `Paired ps`: the tokens of two texts, pair by pair the same but for their places, and the
    end of the input among them.
  * `ReadInStep R n p q`: on up to `n` pairs, `p` reads from the first tokens what `q` reads
    from the second, up to `R`, and leaves as many, or both fail at tokens of one pair, with
    the same cause. The smallest readers do, and what is put together of readers that do;
    so do the levels of expressions, the statements and the frames.
  * `AnswersAlike ps`: two answers of a parser that are the same but for places.
  * `formatting_irrelevant`: with other blanks around its words, a text has the same tokens
    and the same tree or error, but for the places.
-/
import Rulebook.Proofs.Respacing
import Rulebook.Proofs.Readers
import Rulebook.Proofs.Trees

namespace Rulebook

open Reader Text Number

variable {α β γ : Type}

/-! ## Texts in step -/

theorem Token.Alike.shown {t u : Token} (h : t.Alike u) : t.shown = u.shown := by
  rw [Token.shown, Token.shown, h.kind, h.lexeme]

/-- The tokens of two texts of the same words, pair by pair, with the end of the input. -/
structure Paired (ps : List (Token × Token)) : Prop where
  alike : ∀ p ∈ ps, p.1.Alike p.2
  ends : ∃ p ∈ ps, p.1.kind = .finish

theorem Paired.exists_cons {ps : List (Token × Token)} (h : Paired ps) :
    ∃ t u rest, ps = (t, u) :: rest ∧ t.Alike u := by
  obtain ⟨p, hp, -⟩ := h.ends
  obtain ⟨⟨t, u⟩, rest, rfl⟩ := List.exists_cons_of_ne_nil (List.ne_nil_of_mem hp)
  exact ⟨t, u, rest, rfl, h.alike _ List.mem_cons_self⟩

/-- Short of the end of the input there are more tokens. -/
theorem Paired.tail {t u : Token} {rest : List (Token × Token)} (h : Paired ((t, u) :: rest))
    (ht : t.kind ≠ .finish) : Paired rest := by
  refine ⟨fun p hp => h.alike p (List.mem_cons_of_mem _ hp), ?_⟩
  obtain ⟨p, hp, hfinish⟩ := h.ends
  rcases List.mem_cons.1 hp with rfl | hp
  · exact absurd hfinish ht
  · exact ⟨p, hp, hfinish⟩

/-- What two readers make of the texts: both read and leave as much, or both fail at the
    same token, with the same cause. -/
inductive InStep (R : α → β → Prop) (ps : List (Token × Token)) :
    Except ExpressionError (α × List Token) → Except ExpressionError (β × List Token) → Prop
  | read {x y rest} : R x y → Paired rest → rest <:+ ps →
      InStep R ps (.ok (x, rest.map Prod.fst)) (.ok (y, rest.map Prod.snd))
  | failed {t u c} : (t, u) ∈ ps → InStep R ps (.error (t.error c)) (.error (u.error c))

theorem InStep.of_suffix {R : α → β → Prop} {ps rest : List (Token × Token)}
    {a : Except ExpressionError (α × List Token)} {b : Except ExpressionError (β × List Token)}
    (h : InStep R rest a b) (hrest : rest <:+ ps) : InStep R ps a b := by
  cases h with
  | read hxy hleft hsuffix => exact .read hxy hleft (hsuffix.trans hrest)
  | failed hmem => exact .failed (hrest.subset hmem)

/-- Two readers that go through up to `n` pairs of tokens in step. -/
def ReadInStep (R : α → β → Prop) (n : ℕ) (p : Reader α) (q : Reader β) : Prop :=
  ∀ ps, ps.length ≤ n → Paired ps → InStep R ps (p (ps.map Prod.fst)) (q (ps.map Prod.snd))

section
variable {R : α → α → Prop} {S : β → β → Prop} {n : ℕ}

theorem readInStep_give {x y : α} (h : R x y) : ReadInStep R n (give x) (give y) :=
  fun ps _ hps => .read h hps (List.suffix_refl ps)

theorem readInStep_failing {c : Token → Cause} (h : ∀ t u, t.Alike u → c t = c u) :
    ReadInStep R n (failing c) (failing c) := by
  intro ps _ hps
  obtain ⟨t, u, rest, rfl, halike⟩ := hps.exists_cons
  rw [failing, failing, List.map_cons, List.map_cons, currentToken_cons, currentToken_cons,
    ← h t u halike]
  exact .failed List.mem_cons_self

/-- Going past a token, where fewer pairs are left, or reading something else. -/
theorem readInStep_taking {f : TokenKind → Option γ} {p p' : Token → γ → Reader α}
    {q q' : Reader α} (hf : f .finish = none)
    (hp : ∀ t u c, t.Alike u → ∀ m < n, ReadInStep R m (p t c) (p' u c))
    (hq : ReadInStep R n q q') : ReadInStep R n (taking f p q) (taking f p' q') := by
  intro ps hn hps
  obtain ⟨t, u, rest, rfl, halike⟩ := hps.exists_cons
  have hother := hq _ hn hps
  rw [List.map_cons, List.map_cons] at hother ⊢
  rw [taking, taking, ← halike.kind]
  cases hc : f t.kind with
  | none => exact hother
  | some c =>
    have ht : t.kind ≠ .finish := by
      intro hfinish
      rw [hfinish, hf] at hc
      cases hc
    exact (hp t u c halike _ hn rest le_rfl (hps.tail ht)).of_suffix (List.suffix_cons _ _)

theorem readInStep_taking_is {kind : TokenKind} {p p' : Token → Unit → Reader α}
    {q q' : Reader α} (hkind : kind ≠ .finish)
    (hp : ∀ t u, t.Alike u → ∀ m < n, ReadInStep R m (p t ()) (p' u ()))
    (hq : ReadInStep R n q q') :
    ReadInStep R n (taking (is kind) p q) (taking (is kind) p' q') :=
  readInStep_taking (if_neg hkind.symm) (fun t u _ => hp t u) hq

theorem readInStep_stopping {stops : TokenKind → Bool} {x y : α} {q q' : Reader α}
    (h : R x y) (hq : ReadInStep R n q q') :
    ReadInStep R n (stopping stops x q) (stopping stops y q') := by
  intro ps hn hps
  have hother := hq ps hn hps
  have hgive : InStep R ps (give x (ps.map Prod.fst)) (give y (ps.map Prod.snd)) :=
    readInStep_give h ps hn hps
  obtain ⟨t, u, rest, rfl, halike⟩ := hps.exists_cons
  rw [stopping, stopping, List.map_cons, List.map_cons, nextKind_cons, nextKind_cons,
    ← halike.kind]
  split_ifs
  · exact hgive
  · exact hother

theorem ReadInStep.andThen {p p' : Reader β} {next next' : β → Reader α}
    (h : ReadInStep S n p p') (hnext : ∀ x y, S x y → ReadInStep R n (next x) (next' y)) :
    ReadInStep R n (p.andThen next) (p'.andThen next') := by
  intro ps hn hps
  have hfirst := h ps hn hps
  unfold Reader.andThen
  generalize p (ps.map Prod.fst) = a at hfirst
  generalize p' (ps.map Prod.snd) = b at hfirst
  cases hfirst with
  | read hxy hrest hsuffix =>
    exact (hnext _ _ hxy _ (hsuffix.length_le.trans hn) hrest).of_suffix hsuffix
  | failed hmem => exact .failed hmem

theorem readInStep_expecting {kind : TokenKind} (hkind : kind ≠ .finish) (c : Cause)
    {p p' : Reader α} (h : ∀ m, ReadInStep R m p p') :
    ReadInStep R n (expecting kind c p) (expecting kind c p') :=
  readInStep_taking_is hkind (fun _ _ _ m _ => h m) (readInStep_failing fun _ _ _ => rfl)

end

/-! ## Expressions -/

/-- A reader of trees with itself. -/
def ReadsAlike (p : Reader Node) : Prop := ∀ n, ReadInStep Node.Alike n p p

section
variable {inner : Inner} (h : ∀ f, ReadsAlike (reader (inner f)))
include h

theorem readInStep_moreArguments (n : ℕ) :
    ReadInStep NodesAlike n (reader (moreArguments inner)) (reader (moreArguments inner)) := by
  -- by the number of tokens: behind each comma there are fewer
  induction n using Nat.strong_induction_on with
  | _ n ih =>
    rw [reader_moreArguments inner]
    refine readInStep_taking_is (by simp) (fun t u _ m hm => ?_) (readInStep_give rfl)
    refine (h .expression m).andThen fun x y hxy => ?_
    exact (ih m hm).andThen fun xs ys hs => readInStep_give (.cons hxy hs)

theorem readInStep_callArguments (n : ℕ) :
    ReadInStep NodesAlike n (reader (callArguments inner)) (reader (callArguments inner)) := by
  rw [reader_callArguments inner]
  refine readInStep_taking_is (by simp) (fun _ _ _ m _ => readInStep_give rfl) ?_
  refine (h .expression n).andThen fun x y hxy => ?_
  refine (readInStep_moreArguments h n).andThen fun xs ys hs => ?_
  exact readInStep_expecting (by simp) _ fun m => readInStep_give (.cons hxy hs)

theorem readInStep_nameOrCall (name : String) (p q n : ℕ) :
    ReadInStep Node.Alike n (reader (nameOrCall inner name p))
      (reader (nameOrCall inner name q)) := by
  rw [reader_nameOrCall inner, reader_nameOrCall inner]
  refine readInStep_taking_is (by simp) (fun _ _ _ m _ => ?_) (readInStep_give rfl)
  exact (readInStep_callArguments h m).andThen fun xs ys hs => readInStep_give (.call hs)

theorem readsAlike_primary : ReadsAlike (reader (primary inner)) := by
  intro n
  rw [reader_primary inner]
  refine readInStep_taking rfl (fun t u v _ m _ => readInStep_give rfl) ?_
  refine readInStep_taking rfl (fun t u name _ m _ => readInStep_nameOrCall h name _ _ m) ?_
  refine readInStep_taking_is (by simp) (fun _ _ _ m _ => ?_) (readInStep_failing ?_)
  · refine (h .expression m).andThen fun x y hxy => ?_
    exact readInStep_expecting (by simp) _ fun m => readInStep_give hxy
  · intro t u halike
    rw [halike.kind, halike.shown]

theorem readsAlike_unaryOperation : ReadsAlike (reader (unaryOperation inner)) := by
  intro n
  rw [reader_unaryOperation inner]
  refine readInStep_taking rfl (fun t u op _ m _ => ?_) (readsAlike_primary h n)
  exact (h .operand m).andThen fun x y hxy => readInStep_give (.unary hxy)

theorem readsAlike_powerOperation : ReadsAlike (reader (powerOperation inner)) := by
  intro n
  rw [reader_powerOperation inner]
  refine (readsAlike_unaryOperation h n).andThen fun x y hxy => ?_
  refine readInStep_taking_is (by simp) (fun t u _ m _ => ?_) (readInStep_give hxy)
  exact (h .exponent m).andThen fun z z' hz => readInStep_give (.binary hxy hz)

end

section
variable {tier : Tier} {operand : Parser Node} (h : ReadsAlike (reader operand))
include h

theorem readInStep_chainFrom (n : ℕ) : ∀ {x y : Node}, x.Alike y → ReadInStep Node.Alike n
    (reader (chainFrom tier operand x)) (reader (chainFrom tier operand y)) := by
  induction n using Nat.strong_induction_on with
  | _ n ih =>
    intro x y hxy
    rw [reader_chainFrom tier operand, reader_chainFrom tier operand]
    refine readInStep_taking rfl (fun t u op _ m hm => ?_) (readInStep_give hxy)
    exact (h m).andThen fun z z' hz => ih m hm (.binary hxy hz)

theorem readsAlike_chain : ReadsAlike (reader (chain tier operand)) := by
  intro n
  rw [reader_chain tier operand]
  exact (h n).andThen fun x y hxy => readInStep_chainFrom h n hxy

end

section
variable {inner : Inner} (h : ∀ f, ReadsAlike (reader (inner f)))
include h

theorem readsAlike_tiers : ReadsAlike (reader (tiers inner)) :=
  readsAlike_chain <| readsAlike_chain <| readsAlike_chain <| readsAlike_chain <|
    readsAlike_chain <| readsAlike_chain <| readsAlike_powerOperation h

/-! ## Statements -/

theorem readInStep_moreStatements (inBlock : Bool) (n : ℕ) :
    ReadInStep NodesAlike n (reader (moreStatements inner inBlock))
      (reader (moreStatements inner inBlock)) := by
  induction n using Nat.strong_induction_on with
  | _ n ih =>
    rw [reader_moreStatements inner]
    refine readInStep_taking_is (by simp) (fun t u _ m hm => ?_) (readInStep_give rfl)
    refine readInStep_stopping rfl ?_
    refine (h .statement m).andThen fun x y hxy => ?_
    exact (ih m hm).andThen fun xs ys hs => readInStep_give (.cons hxy hs)

theorem readInStep_statements (inBlock : Bool) (n : ℕ) :
    ReadInStep NodesAlike n (reader (statements inner inBlock))
      (reader (statements inner inBlock)) := by
  rw [reader_statements inner]
  refine (h .statement n).andThen fun x y hxy => ?_
  exact (readInStep_moreStatements h inBlock n).andThen fun xs ys hs =>
    readInStep_give (.cons hxy hs)

theorem readInStep_conditional (p q n : ℕ) :
    ReadInStep Node.Alike n (reader (conditional inner p)) (reader (conditional inner q)) := by
  rw [reader_conditional inner, reader_conditional inner]
  refine (h .expression n).andThen fun c c' hc => ?_
  refine readInStep_expecting (by simp) _ fun m => ?_
  refine (h .statement m).andThen fun x x' hx => ?_
  refine readInStep_taking_is (by simp) (fun t u _ k _ => ?_) (readInStep_give (.when hc hx))
  exact (h .statement k).andThen fun y y' hy => readInStep_give (.choice hc hx hy)

theorem readInStep_repetition (p q n : ℕ) :
    ReadInStep Node.Alike n (reader (repetition inner p)) (reader (repetition inner q)) := by
  rw [reader_repetition inner, reader_repetition inner]
  refine (h .expression n).andThen fun c c' hc => ?_
  refine readInStep_expecting (by simp) _ fun m => ?_
  exact (h .statement m).andThen fun x x' hx => readInStep_give (.loop hc hx)

theorem readInStep_block (p q n : ℕ) :
    ReadInStep Node.Alike n (reader (block inner p)) (reader (block inner q)) := by
  rw [reader_block inner, reader_block inner]
  refine readInStep_taking_is (by simp) (fun _ _ _ m _ => readInStep_give rfl) ?_
  refine (readInStep_statements h true n).andThen fun xs ys hs => ?_
  exact readInStep_expecting (by simp) _ fun m => readInStep_give (.sequence hs)

theorem readsAlike_assigningOr : ReadsAlike (assigningOr inner) := by
  intro n ps hn hps
  have hexpression := h .expression n ps hn hps
  obtain ⟨t, u, rest, rfl, htu⟩ := hps.exists_cons
  cases rest with
  | nil => exact hexpression
  | cons sign rest =>
    obtain ⟨s, s'⟩ := sign
    have hs : s.Alike s' := hps.alike (s, s') (by simp)
    simp only [List.map_cons] at hexpression ⊢
    have hsame : startsAssignment (u :: s' :: rest.map Prod.snd) =
        startsAssignment (t :: s :: rest.map Prod.fst) := by
      rw [startsAssignment, startsAssignment, htu.kind, hs.kind]
    cases hassigns : startsAssignment (t :: s :: rest.map Prod.fst) with
    | false =>
      rw [assigningOr_expression inner hassigns,
        assigningOr_expression inner (hsame.trans hassigns)]
      exact hexpression
    | true =>
      obtain ⟨t', name, sign, after, heq, ht, hsign⟩ := exists_name_of_startsAssignment hassigns
      cases heq
      have hrest : Paired rest := (hps.tail (by simp [ht])).tail (by simp [hsign])
      rw [assigningOr_assignment inner ht hsign,
        assigningOr_assignment inner (htu.kind ▸ ht) (hs.kind ▸ hsign)]
      have hvalue : ReadInStep Node.Alike rest.length
          ((reader (inner .expression)).andThen fun x => give (.assignment name x t.position))
          ((reader (inner .expression)).andThen fun x => give (.assignment name x u.position)) :=
        (h .expression _).andThen fun x y hxy => readInStep_give (.assignment hxy)
      exact (hvalue rest le_rfl hrest).of_suffix (List.suffix_append [(t, u), (s, s')] rest)

theorem readsAlike_statementBody : ReadsAlike (reader (statementBody inner)) := by
  intro n
  rw [reader_statementBody inner]
  refine readInStep_taking_is (by simp) (fun t u _ m _ => readInStep_conditional h _ _ m) ?_
  refine readInStep_taking_is (by simp) (fun t u _ m _ => readInStep_repetition h _ _ m) ?_
  refine readInStep_taking_is (by simp) (fun t u _ m _ => readInStep_block h _ _ m) ?_
  refine readInStep_taking_is (by simp) (fun t u _ m _ => ?_) (readsAlike_assigningOr h n)
  exact (h .expression m).andThen fun x y hxy => readInStep_give (.log hxy)

end

/-! ## Frames and whole texts -/

theorem readsAlike_frame (limit room : ℕ) : ∀ f, ReadsAlike (reader (frame limit room f)) := by
  induction room with
  | zero =>
    intro f n
    rw [reader_frame_zero]
    exact readInStep_failing fun _ _ _ => rfl
  | succ room ih =>
    intro f
    cases f with
    | statement =>
      rw [frame_statement]
      exact readsAlike_statementBody ih
    | expression =>
      rw [frame_expression]
      exact readsAlike_tiers ih
    | operand =>
      rw [frame_operand]
      exact readsAlike_unaryOperation ih
    | exponent =>
      rw [frame_exponent]
      exact readsAlike_powerOperation ih

theorem readsAlike_readMode (mode : Mode) (limit : ℕ) :
    ReadsAlike (reader (readMode mode limit)) := by
  cases mode with
  | expression => exact readsAlike_frame limit limit .expression
  | script =>
    intro n
    rw [reader_readMode_script]
    exact (readInStep_statements (readsAlike_frame limit limit) false n).andThen
      fun xs ys hs => readInStep_give (asScript_alike hs)

/-- Two answers of a parser that are the same but for places: trees, or errors with the same
    cause at the same token. That there is nothing to parse is said of no token. -/
inductive AnswersAlike (ps : List (Token × Token)) :
    Except ExpressionError Node → Except ExpressionError Node → Prop
  | tree {x y} : x.Alike y → AnswersAlike ps (.ok x) (.ok y)
  | error {t u c} : (t, u) ∈ ps → AnswersAlike ps (.error (t.error c)) (.error (u.error c))
  | empty : AnswersAlike ps (.error (Token.unplacedFinish.error .empty))
      (.error (Token.unplacedFinish.error .empty))

theorem Paired.atFinish {ps : List (Token × Token)} (h : Paired ps) :
    atFinish (ps.map Prod.snd) = atFinish (ps.map Prod.fst) := by
  obtain ⟨t, u, rest, rfl, htu⟩ := h.exists_cons
  rw [List.map_cons, List.map_cons, Rulebook.atFinish, Rulebook.atFinish, currentToken_cons,
    currentToken_cons, htu.kind]

theorem parseTokens_alike {ps : List (Token × Token)} (hps : Paired ps) (mode : Mode)
    (limit : ℕ) : AnswersAlike ps (parseTokens mode limit (ps.map Prod.fst))
      (parseTokens mode limit (ps.map Prod.snd)) := by
  rw [parseTokens_eq, parseTokens_eq, hps.atFinish]
  split_ifs with hempty
  · exact .empty
  have hread : InStep Node.Alike ps (outcome (readMode mode limit (ps.map Prod.fst)))
      (outcome (readMode mode limit (ps.map Prod.snd))) :=
    readsAlike_readMode mode limit _ ps le_rfl hps
  generalize outcome (readMode mode limit (ps.map Prod.fst)) = a at hread
  generalize outcome (readMode mode limit (ps.map Prod.snd)) = b at hread
  cases hread with
  | failed hmem => exact .error hmem
  | read hxy hrest hsuffix =>
    rw [ok_bind, ok_bind]
    dsimp only
    rw [hrest.atFinish]
    split_ifs with hend
    · exact .tree hxy
    · obtain ⟨t, u, left, rfl, htu⟩ := hrest.exists_cons
      rw [List.map_cons, List.map_cons, currentToken_cons, currentToken_cons, ← htu.shown]
      exact .error (hsuffix.subset List.mem_cons_self)

/-- Tokens that are the same but for places are paired. -/
theorem paired_zip {ts us : List Token} (h : List.Forall₂ Token.Alike ts us)
    (hend : ∃ t ∈ ts, t.kind = .finish) :
    Paired (ts.zip us) ∧ (ts.zip us).map Prod.fst = ts ∧ (ts.zip us).map Prod.snd = us := by
  have hfst : (ts.zip us).map Prod.fst = ts := List.map_fst_zip h.length_eq.le
  refine ⟨⟨fun p hp => List.forall₂_zip h hp, ?_⟩, hfst, List.map_snd_zip h.length_eq.ge⟩
  obtain ⟨t, ht, hfinish⟩ := hend
  rw [← hfst, List.mem_map] at ht
  obtain ⟨p, hp, rfl⟩ := ht
  exact ⟨p, hp, hfinish⟩

/-- **Formatting does not matter.** A text of the same words as another, with blanks between
    each two and perhaps at either end, has the same tokens but for their places; so in each
    mode and with each limit on nesting it is parsed to the same tree but for places, or
    rejected for the same cause at the same token. -/
theorem formatting_irrelevant {source text : String} {w : List Token} {e : Token}
    (h : tokenize source = .ok (w ++ [e])) (htext : Spaces (w.map (·.lexeme)) text) :
    ∃ us, tokenize text = .ok us ∧ List.Forall₂ Token.Alike (w ++ [e]) us ∧
      ∀ mode limit, AnswersAlike ((w ++ [e]).zip us) (parse mode limit source)
        (parse mode limit text) := by
  obtain ⟨us, hus, halike⟩ := tokenize_spaced h htext
  refine ⟨us, hus, halike, fun mode limit => ?_⟩
  obtain ⟨w', e', hends, he, -⟩ := tokenize_lexical h
  have hfinish : ∃ t ∈ w ++ [e], t.kind = .finish := ⟨e', by simp [hends], he⟩
  obtain ⟨hpaired, hfst, hsnd⟩ := paired_zip halike hfinish
  have hparsed := parseTokens_alike hpaired mode limit
  rw [hfst, hsnd] at hparsed
  rw [parse, parse, h, hus]
  exact hparsed

/-- The tokens of a sum that is written without blanks. -/
def sumTokens : List Token := [⟨.name "a", 0, 1, 1, "a"⟩, ⟨.operator .plus, 1, 1, 2, "+"⟩,
  ⟨.number (numeralValue ['1']), 2, 1, 3, "1"⟩]

/-- Where it ends. -/
def sumEnd : Token := .finishAt 3 ⟨1, 4⟩

/-- The sum on two lines. -/
theorem sum_reformatted :
    tokenize "a+1" = .ok (sumTokens ++ [sumEnd]) ∧
      Spaces (sumTokens.map (·.lexeme)) "\ta +\n1" ∧
      ∃ us, tokenize "\ta +\n1" = .ok us ∧
        List.Forall₂ Token.Alike (sumTokens ++ [sumEnd]) us ∧
        ∀ mode limit, AnswersAlike ((sumTokens ++ [sumEnd]).zip us) (parse mode limit "a+1")
          (parse mode limit "\ta +\n1") := by
  have htokens : tokenize "a+1" = .ok (sumTokens ++ [sumEnd]) := by decide +kernel
  have hgap : ∀ {c : Char}, isBlank c = true → IsGap [c] := by simp [IsGap]
  have hlast : SpacedFrom ["1"] ['1'] :=
    @SpacedFrom.cons "1" [] [] [] (by simp [IsGap]) (by simp) .nil
  have hplus : SpacedFrom ["+", "1"] ['+', '\n', '1'] :=
    @SpacedFrom.cons "+" ['\n'] _ _ (hgap (by decide +kernel)) (by simp) hlast
  have hall : SpacedFrom ["a", "+", "1"] ['a', ' ', '+', '\n', '1'] :=
    @SpacedFrom.cons "a" [' '] _ _ (hgap (by decide +kernel)) (by simp) hplus
  have hspaces : Spaces (sumTokens.map (·.lexeme)) "\ta +\n1" :=
    ⟨['\t'], _, hgap (by decide +kernel), hall, by decide⟩
  exact ⟨htokens, hspaces, formatting_irrelevant htokens hspaces⟩

end Rulebook

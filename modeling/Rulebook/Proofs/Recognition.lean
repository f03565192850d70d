/-
  Recognition — each level of expressions is read by its parser.

  * `Recognizes p L continues`: what `p` reads is a word of `L`, and `p` reads
    every word of `L` that stands before a token with which it could not go on.
  * `recognizes_chain`, `recognizes_powerOperation` and the like lift recognition of the
    frames inside to each level, `recognizes_tiers` to whole expressions.
-/
import Rulebook.Proofs.Words
import Rulebook.Proofs.Expressions

namespace Rulebook

/-! ## Recognition -/

/-- What a parser reads is a word of the language, and it reads every word that
    stands before a token with which it could not go on. -/
structure Recognizes (p : Parser Node) (L : Language Node)
    (continues : Node → TokenKind → Prop) : Prop where
  sound {ts x rest} : outcome (p ts) = .ok (x, rest) → ∃ w, ts = w ++ rest ∧ L w x
  complete {w x rest} : L w x → ¬ continues x (nextKind rest) →
    outcome (p (w ++ rest)) = .ok (x, rest)

/-- What the levels of the grammar need of the frames inside. -/
structure RecognizesFrames (inner : Inner) (L : Frame → Language Node) : Prop where
  frame (f : Frame) : Recognizes (inner f) (L f) f.continues
  begins {f w x} : L f w x → Begins f.begins w
  /-- After an open statement no `ELSE` is left. -/
  closed {ts x rest} : outcome (inner .statement ts) = .ok (x, rest) → x.isOpen = true →
    nextKind rest ≠ .keyword .else_

theorem Recognizes.mono {p : Parser Node} {L : Language Node} {c c' : Node → TokenKind → Prop}
    (h : Recognizes p L c) (hc : ∀ x k, c x k → c' x k) : Recognizes p L c' where
  sound := h.sound
  complete hw hk := h.complete hw fun h' => hk (hc _ _ h')

/-! ## Chains -/

section
variable {tier : Tier} {p : Parser Node} {L : Language Node} {c : Node → TokenKind → Prop}

/-- What the rest of a chain reads goes on with the chain before it. -/
theorem chainFrom_sound (h : Recognizes p L c) :
    ∀ (n : ℕ) {ts : List Token}, ts.length ≤ n → ∀ {w₀ : List Token} {x₀ x : Node} {rest},
      Chain tier L w₀ x₀ → outcome (chainFrom tier p x₀ ts) = .ok (x, rest) →
      ∃ w, ts = w ++ rest ∧ Chain tier L (w₀ ++ w) x := by
  intro n
  induction n with
  | zero =>
    intro ts hn w₀ x₀ x rest h₀ ho
    obtain rfl := List.length_eq_zero_iff.1 (Nat.le_zero.1 hn)
    simp only [outcome_chainFrom_nil, Except.ok.injEq, Prod.mk.injEq] at ho
    obtain ⟨rfl, rfl⟩ := ho
    exact ⟨[], rfl, by simpa using h₀⟩
  | succ n ih =>
    intro ts hn w₀ x₀ x rest h₀ ho
    cases ts with
    | nil =>
      simp only [outcome_chainFrom_nil, Except.ok.injEq, Prod.mk.injEq] at ho
      obtain ⟨rfl, rfl⟩ := ho
      exact ⟨[], rfl, by simpa using h₀⟩
    | cons t ts =>
      rw [outcome_chainFrom_cons] at ho
      cases hop : t.kind.tierOperator? tier with
      | none =>
        simp only [hop, Except.ok.injEq, Prod.mk.injEq] at ho
        obtain ⟨rfl, rfl⟩ := ho
        exact ⟨[], rfl, by simpa using h₀⟩
      | some op =>
        simp only [hop, bind_eq_ok] at ho
        obtain ⟨⟨y, left⟩, hy, ho⟩ := ho
        have hlen := length_lt_of_outcome hy
        obtain ⟨v, rfl, hv⟩ := h.sound hy
        have hshort : left.length ≤ n := by
          simp only [List.length_cons] at hn
          omega
        obtain ⟨u, rfl, hu⟩ := ih hshort (h₀.step hop hv) ho
        exact ⟨t :: (v ++ u), by simp, by simpa using hu⟩

/-- A chain is read as far as it goes, and then the rest of it is. -/
theorem chain_complete (h : Recognizes p L c)
    (hc : ∀ x k, (k.tierOperator? tier).isSome → ¬ c x k) {w : List Token} {x : Node}
    (hw : Chain tier L w x) : ∀ {rest}, (∀ y, ¬ c y (nextKind rest)) →
      outcome (chain tier p (w ++ rest)) = outcome (chainFrom tier p x rest) := by
  induction hw with
  | single hx =>
    intro rest hr
    rw [outcome_chain, h.complete hx (hr _), ok_bind]
  | @step w x t op v y _ hop hv ih =>
    intro rest hr
    have ht : ∀ z, ¬ c z (nextKind (t :: (v ++ rest))) := fun z => hc z _ (by simp [hop])
    rw [List.append_assoc, List.cons_append, ih ht, outcome_chainFrom_cons]
    simp only [hop, h.complete hv (hr y), ok_bind]

theorem recognizes_chain (h : Recognizes p L c)
    (hc : ∀ x k, (k.tierOperator? tier).isSome → ¬ c x k) :
    Recognizes (chain tier p) (Chain tier L)
      fun _ k => (∃ x, c x k) ∨ (k.tierOperator? tier).isSome where
  sound {ts x rest} ho := by
    rw [outcome_chain, bind_eq_ok] at ho
    obtain ⟨⟨y, left⟩, hy, ho⟩ := ho
    obtain ⟨w, rfl, hw⟩ := h.sound hy
    obtain ⟨v, rfl, hv⟩ := chainFrom_sound h _ (Nat.le_refl _) (.single hw) ho
    exact ⟨w ++ v, by simp, hv⟩
  complete {w x rest} hw hr := by
    rw [not_or, not_exists] at hr
    rw [chain_complete h hc hw hr.1]
    cases rest with
    | nil => rw [outcome_chainFrom_nil]
    | cons t rest =>
      rw [outcome_chainFrom_cons]
      have ht : t.kind.tierOperator? tier = none := by simpa using hr.2
      simp only [ht]

end

/-! ## Operands -/

section
variable {inner : Inner} {L : Frame → Language Node}

theorem moreArguments_sound (h : RecognizesFrames inner L) :
    ∀ (n : ℕ) {ts : List Token}, ts.length ≤ n → ∀ {xs : List Node} {rest},
      outcome (moreArguments inner ts) = .ok (xs, rest) → ∀ {w x}, L .expression w x →
      ∃ v, ts = v ++ rest ∧ Separated .comma (L .expression) (w ++ v) (x :: xs) := by
  intro n
  induction n with
  | zero =>
    intro ts hn xs rest ho w x hx
    obtain rfl := List.length_eq_zero_iff.1 (Nat.le_zero.1 hn)
    simp only [outcome_moreArguments_nil, Except.ok.injEq, Prod.mk.injEq] at ho
    obtain ⟨rfl, rfl⟩ := ho
    exact ⟨[], rfl, by simpa using Separated.one hx⟩
  | succ n ih =>
    intro ts hn xs rest ho w x hx
    cases ts with
    | nil =>
      simp only [outcome_moreArguments_nil, Except.ok.injEq, Prod.mk.injEq] at ho
      obtain ⟨rfl, rfl⟩ := ho
      exact ⟨[], rfl, by simpa using Separated.one hx⟩
    | cons t ts =>
      rw [outcome_moreArguments_cons] at ho
      split_ifs at ho with hk
      · simp only [bind_eq_ok] at ho
        obtain ⟨⟨y, left⟩, hy, ⟨ys, left'⟩, hys, ho⟩ := ho
        simp only [pure, Except.pure, Except.ok.injEq, Prod.mk.injEq] at ho
        obtain ⟨rfl, rfl⟩ := ho
        have hlen := length_lt_of_outcome hy
        obtain ⟨v, rfl, hv⟩ := (h.frame .expression).sound hy
        have hshort : left.length ≤ n := by
          simp only [List.length_cons] at hn
          omega
        obtain ⟨u, rfl, hu⟩ := ih hshort hys hv
        exact ⟨t :: (v ++ u), by simp, .more hx hk hu⟩
      · simp only [Except.ok.injEq, Prod.mk.injEq] at ho
        obtain ⟨rfl, rfl⟩ := ho
        exact ⟨[], rfl, by simpa using Separated.one hx⟩

/-- Arguments are read up to the parenthesis that closes them. -/
theorem arguments_complete (h : RecognizesFrames inner L) {w : List Token} {xs : List Node}
    (hw : Separated .comma (L .expression) w xs) {r : Token} (hr : r.kind = .rightParen)
    (rest : List Token) :
    (do let x ← outcome (inner .expression (w ++ r :: rest))
        let xs ← outcome (moreArguments inner x.2)
        return (x.1 :: xs.1, xs.2)) = Except.ok (xs, r :: rest) := by
  induction hw with
  | @one w x hx =>
    have hc : ¬ Frame.continues .expression x (nextKind (r :: rest)) := by
      simp [Frame.continues, TokenKind.continuesExpression, hr, TokenKind.binary?]
    rw [(h.frame .expression).complete hx hc, ok_bind, outcome_moreArguments_cons]
    simp [hr, pure, Except.pure]
  | @more w x t v xs hx ht hv ih =>
    have hc : ¬ Frame.continues .expression x (nextKind (t :: (v ++ r :: rest))) := by
      simp [Frame.continues, TokenKind.continuesExpression, ht, TokenKind.binary?]
    rw [List.append_assoc, List.cons_append, (h.frame .expression).complete hx hc, ok_bind,
      outcome_moreArguments_cons]
    simp only [ht, if_true, ih, ok_bind]
    rfl

theorem callArguments_sound (h : RecognizesFrames inner L) {ts rest : List Token}
    {xs : List Node} (ho : outcome (callArguments inner ts) = .ok (xs, rest)) :
    ∃ w r, ts = w ++ r :: rest ∧ r.kind = .rightParen ∧
      (w = [] ∧ xs = [] ∨ Separated .comma (L .expression) w xs) := by
  rw [outcome_callArguments] at ho
  split_ifs at ho with hk
  · simp only [bind_eq_ok] at ho
    obtain ⟨⟨u, left⟩, hclose, ho⟩ := ho
    obtain ⟨r, rfl, hr⟩ := outcome_expect_eq_ok.1 hclose
    cases ho
    exact ⟨[], r, rfl, hr, .inl ⟨rfl, rfl⟩⟩
  · simp only [bind_eq_ok] at ho
    obtain ⟨⟨x, left⟩, hx, ⟨ys, left'⟩, hys, ⟨u, left''⟩, hclose, ho⟩ := ho
    obtain ⟨w, rfl, hw⟩ := (h.frame .expression).sound hx
    obtain ⟨v, rfl, hv⟩ := moreArguments_sound h _ (Nat.le_refl _) hys hw
    obtain ⟨r, rfl, hr⟩ := outcome_expect_eq_ok.1 hclose
    cases ho
    exact ⟨w ++ v, r, by simp, hr, .inr hv⟩

theorem callArguments_complete (h : RecognizesFrames inner L) {w : List Token}
    {xs : List Node} (hw : Separated .comma (L .expression) w xs) {r : Token}
    (hr : r.kind = .rightParen) (rest : List Token) :
    outcome (callArguments inner (w ++ r :: rest)) = .ok (xs, rest) := by
  have hb : Begins TokenKind.beginsExpression w := by
    cases hw with
    | one hx => exact h.begins hx
    | more hx _ _ => exact (h.begins hx).append _
  have hk : (currentToken (w ++ r :: rest)).kind ≠ .rightParen :=
    (TokenKind.beginsExpression_ne (hb.append (r :: rest)).nextKind).1
  have ha := arguments_complete h hw hr rest
  rw [bind_eq_ok] at ha
  obtain ⟨⟨x, left⟩, hx, ha⟩ := ha
  rw [bind_eq_ok] at ha
  obtain ⟨⟨ys, left'⟩, hys, ha⟩ := ha
  cases ha
  rw [outcome_callArguments, if_neg hk]
  simp [hx, hys, hr, pure, Except.pure]

theorem recognizes_primary (h : RecognizesFrames inner L) :
    Recognizes (primary inner) (Primary L) fun _ k => k = .leftParen where
  sound {ts x rest} ho := by
    cases ts with
    | nil => simp at ho
    | cons t ts =>
      cases hl : t.kind.literal? with
      | some v =>
        rw [outcome_primary_literal inner hl] at ho
        cases ho
        exact ⟨[t], rfl, .literal hl⟩
      | none =>
        by_cases hn : ∃ n, t.kind = .name n
        · obtain ⟨n, hn⟩ := hn
          rw [outcome_primary_name inner hn] at ho
          cases ts with
          | nil => cases ho; exact ⟨[t], rfl, .reference hn⟩
          | cons l ts =>
            rw [outcome_nameOrCall_cons] at ho
            split_ifs at ho with hk
            · rw [bind_eq_ok] at ho
              obtain ⟨⟨xs, left⟩, ha, ho⟩ := ho
              cases ho
              obtain ⟨w, r, rfl, hr, ⟨rfl, rfl⟩ | hw⟩ := callArguments_sound h ha
              · exact ⟨[t, l, r], rfl, .emptyCall hn hk hr⟩
              · exact ⟨t :: l :: (w ++ [r]), by simp, .call hn hk hr hw⟩
            · cases ho; exact ⟨[t], rfl, .reference hn⟩
        · by_cases hp : t.kind = .leftParen
          · rw [outcome_primary_group inner hp] at ho
            simp only [bind_eq_ok] at ho
            obtain ⟨⟨y, left⟩, hy, ⟨u, left'⟩, hclose, ho⟩ := ho
            cases ho
            obtain ⟨w, rfl, hw⟩ := (h.frame .expression).sound hy
            obtain ⟨r, rfl, hr⟩ := outcome_expect_eq_ok.1 hclose
            exact ⟨t :: (w ++ [r]), by simp, .group hp hr hw⟩
          · rw [outcome_primary_unexpected inner hl (not_exists.1 hn) hp] at ho
            cases ho
  complete {w x rest} hw hr := by
    cases hw with
    | literal hl => exact outcome_primary_literal inner hl rest
    | @reference t n hn =>
      rw [List.singleton_append, outcome_primary_name inner hn]
      cases rest with
      | nil => rfl
      | cons l rest => rw [outcome_nameOrCall_cons, if_neg (nextKind_cons l rest ▸ hr)]
    | @emptyCall t n l r hn hl hc =>
      simp only [List.cons_append, List.nil_append]
      rw [outcome_primary_name inner hn, outcome_nameOrCall_cons, if_pos hl,
        outcome_callArguments]
      simp [hc, pure, Except.pure]
    | @call t n l r w xs hn hl hc hw =>
      rw [List.cons_append, List.cons_append, outcome_primary_name inner hn,
        outcome_nameOrCall_cons, if_pos hl, List.append_assoc, List.singleton_append,
        callArguments_complete h hw hc]
      rfl
    | @group l r w x hl hc hx =>
      have hk : ¬ Frame.continues .expression x (nextKind (r :: rest)) := by
        simp [Frame.continues, TokenKind.continuesExpression, hc, TokenKind.binary?]
      rw [List.cons_append, outcome_primary_group inner hl, List.append_assoc,
        List.singleton_append, (h.frame .expression).complete hx hk]
      simp [hc, pure, Except.pure]

theorem recognizes_unaryOperation (h : RecognizesFrames inner L) :
    Recognizes (unaryOperation inner) (Unary L) fun _ k => k = .leftParen where
  sound {ts x rest} ho := by
    cases ts with
    | nil => simp at ho
    | cons t ts =>
      rw [outcome_unaryOperation_cons] at ho
      cases hu : t.kind.unary? with
      | none =>
        rw [hu] at ho
        obtain ⟨w, he, hw⟩ := (recognizes_primary h).sound ho
        exact ⟨w, he, .primary hw⟩
      | some op =>
        simp only [hu, bind_eq_ok] at ho
        obtain ⟨⟨y, left⟩, hy, ho⟩ := ho
        cases ho
        obtain ⟨w, rfl, hw⟩ := (h.frame .operand).sound hy
        exact ⟨t :: w, rfl, .operation hu hw⟩
  complete {w x rest} hw hr := by
    cases hw with
    | primary hx =>
      have hp := (recognizes_primary h).complete hx hr
      obtain ⟨t, v, rfl, ht⟩ := hx.begins
      have hu : t.kind.unary? = none := by simpa using (Bool.and_eq_true_iff.1 ht).2
      rw [List.cons_append, outcome_unaryOperation_cons, hu]
      exact hp
    | @operation t op w x hu hx =>
      rw [List.cons_append, outcome_unaryOperation_cons, hu]
      simp only [(h.frame .operand).complete hx hr, ok_bind]
      rfl

theorem recognizes_powerOperation (h : RecognizesFrames inner L) :
    Recognizes (powerOperation inner) (Power L)
      fun _ k => k = .leftParen ∨ k = .operator .power where
  sound {ts x rest} ho := by
    rw [outcome_powerOperation, bind_eq_ok] at ho
    obtain ⟨⟨y, left⟩, hy, ho⟩ := ho
    obtain ⟨w, rfl, hw⟩ := (recognizes_unaryOperation h).sound hy
    cases left with
    | nil => cases ho; exact ⟨w, rfl, .base hw⟩
    | cons t left =>
      simp only [powerRest] at ho
      split_ifs at ho with hk
      · rw [bind_eq_ok] at ho
        obtain ⟨⟨z, left'⟩, hz, ho⟩ := ho
        cases ho
        obtain ⟨v, rfl, hv⟩ := (h.frame .exponent).sound hz
        exact ⟨w ++ t :: v, by simp, .power hw hk hv⟩
      · cases ho; exact ⟨w, rfl, .base hw⟩
  complete {w x rest} hw hr := by
    rw [outcome_powerOperation]
    rw [not_or] at hr
    cases hw with
    | base hx =>
      rw [(recognizes_unaryOperation h).complete hx hr.1, ok_bind]
      cases rest with
      | nil => rfl
      | cons t rest => exact if_neg hr.2
    | @power w x t v y hx ht hy =>
      have hk : ¬ nextKind (t :: (v ++ rest)) = .leftParen := by simp [ht]
      have hk' : ¬ Frame.continues .exponent y (nextKind rest) := not_or.2 hr
      rw [List.append_assoc, List.cons_append,
        (recognizes_unaryOperation h).complete hx hk, ok_bind]
      simp only [powerRest, ht, if_true, (h.frame .exponent).complete hy hk', ok_bind]
      rfl

/-! ## Tiers -/

/-- One more tier around operands that no operator of the tier goes on with. -/
theorem recognizes_tier (tier : Tier) {p : Parser Node} {L : Language Node}
    {tighter : TokenKind → Prop} (h : Recognizes p L fun _ => tighter)
    (hc : ∀ k, k.tier? = some tier → ¬ tighter k) :
    Recognizes (chain tier p) (Chain tier L) fun _ k => tighter k ∨ k.tier? = some tier :=
  (recognizes_chain h fun _ k hk => hc k (TokenKind.isSome_tierOperator?.1 hk)).mono
    fun _ _ => Or.imp (fun ⟨_, hk⟩ => hk) TokenKind.isSome_tierOperator?.1

theorem recognizes_tiers (h : RecognizesFrames inner L) :
    Recognizes (tiers inner) (Expression L) fun _ => TokenKind.continuesExpression := by
  have hproduct := recognizes_tier .product (recognizes_powerOperation h) (by
    rintro k hk (rfl | rfl) <;> cases hk)
  have hsum := recognizes_tier .sum hproduct (by
    rintro k hk ((rfl | rfl) | hk') <;> simp_all)
  have hrelation := recognizes_tier .relation hsum (by
    rintro k hk (((rfl | rfl) | hk') | hk') <;> simp_all)
  have hequality := recognizes_tier .equality hrelation (by
    rintro k hk ((((rfl | rfl) | hk') | hk') | hk') <;> simp_all)
  have hconjunction := recognizes_tier .conjunction hequality (by
    rintro k hk (((((rfl | rfl) | hk') | hk') | hk') | hk') <;> simp_all)
  have hdisjunction := recognizes_tier .disjunction hconjunction (by
    rintro k hk ((((((rfl | rfl) | hk') | hk') | hk') | hk') | hk') <;> simp_all)
  refine hdisjunction.mono fun _ k hk => ?_
  have hbinary : ∀ tier, k.tier? = some tier → k.continuesExpression := by
    intro tier ht
    obtain ⟨op, hop, -⟩ := Option.bind_eq_some_iff.1 ht
    exact .inr (by simp [hop])
  rcases hk with ((((((rfl | rfl) | hk) | hk) | hk) | hk) | hk) | hk
  · exact .inl rfl
  · exact .inr rfl
  all_goals exact hbinary _ hk

end

end Rulebook

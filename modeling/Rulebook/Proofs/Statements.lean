/-
  Statements — statements are read by their parser.

  * `statements_sound`, `statements_complete`: so are lists of statements, up to
    where they may end.
  * `statementBody_sound`, `statementBody_complete`: so is each statement; after an
    open one no `ELSE` is left.
-/
import Rulebook.Proofs.Recognition

namespace Rulebook

section
variable {inner : Inner} {L : Frame → Language Node}

/-! ## Lists of statements -/

theorem moreStatements_sound (h : RecognizesFrames inner L) (inBlock : Bool) :
    ∀ (n : ℕ) {ts : List Token}, ts.length ≤ n → ∀ {xs : List Node} {rest},
      outcome (moreStatements inner inBlock ts) = .ok (xs, rest) → ∀ {w x}, L .statement w x →
      ∃ v, ts = v ++ rest ∧ Statements (L .statement) (w ++ v) (x :: xs) := by
  intro n
  induction n with
  | zero =>
    intro ts hn xs rest ho w x hx
    obtain rfl := List.length_eq_zero_iff.1 (Nat.le_zero.1 hn)
    simp only [outcome_moreStatements_nil, Except.ok.injEq, Prod.mk.injEq] at ho
    obtain ⟨rfl, rfl⟩ := ho
    exact ⟨[], rfl, by simpa using Statements.last hx⟩
  | succ n ih =>
    intro ts hn xs rest ho w x hx
    cases ts with
    | nil =>
      simp only [outcome_moreStatements_nil, Except.ok.injEq, Prod.mk.injEq] at ho
      obtain ⟨rfl, rfl⟩ := ho
      exact ⟨[], rfl, by simpa using Statements.last hx⟩
    | cons t ts =>
      rw [outcome_moreStatements_cons] at ho
      split_ifs at ho with hk hend
      · cases ho
        exact ⟨[t], rfl, .lastEnded hx hk⟩
      · simp only [bind_eq_ok] at ho
        obtain ⟨⟨y, left⟩, hy, ⟨ys, left'⟩, hys, ho⟩ := ho
        cases ho
        have hlen := length_lt_of_outcome hy
        obtain ⟨v, rfl, hv⟩ := (h.frame .statement).sound hy
        have hshort : left.length ≤ n := by
          simp only [List.length_cons] at hn
          omega
        obtain ⟨u, rfl, hu⟩ := ih hshort hys hv
        exact ⟨t :: (v ++ u), by simp, .more hx hk hu⟩
      · cases ho
        exact ⟨[], rfl, by simpa using Statements.last hx⟩

theorem statements_sound (h : RecognizesFrames inner L) {inBlock : Bool} {ts rest : List Token}
    {xs : List Node} (ho : outcome (statements inner inBlock ts) = .ok (xs, rest)) :
    ∃ w, ts = w ++ rest ∧ Statements (L .statement) w xs := by
  simp only [outcome_statements, bind_eq_ok] at ho
  obtain ⟨⟨x, left⟩, hx, ⟨ys, left'⟩, hys, ho⟩ := ho
  cases ho
  obtain ⟨w, rfl, hw⟩ := (h.frame .statement).sound hx
  obtain ⟨v, rfl, hv⟩ := moreStatements_sound h _ _ (Nat.le_refl _) hys hw
  exact ⟨w ++ v, by simp, hv⟩

theorem Statements.begins (h : RecognizesFrames inner L) {w : List Token} {xs : List Node}
    (hw : Statements (L .statement) w xs) : Begins TokenKind.beginsStatement w := by
  cases hw with
  | last hx => exact h.begins hx
  | lastEnded hx _ => exact (h.begins hx).append _
  | more hx _ _ => exact (h.begins hx).append _

/-- Where a list of statements may end. -/
def endsStatements (inBlock : Bool) (k : TokenKind) : Prop :=
  k = .finish ∨ inBlock = true ∧ k = .keyword .end_

theorem endsStatements_iff {inBlock : Bool} {ts : List Token} :
    (atFinish ts || (inBlock && (currentToken ts).kind = .keyword .end_)) = true ↔
      endsStatements inBlock (nextKind ts) := by
  simp [atFinish, endsStatements, nextKind]

theorem endsStatements_not_continues {inBlock : Bool} {k : TokenKind}
    (h : endsStatements inBlock k) (x : Node) :
    ¬ Frame.continues .statement x k ∧ k ≠ .semicolon := by
  rcases h with rfl | ⟨-, rfl⟩ <;>
    simp [Frame.continues, TokenKind.continuesExpression, TokenKind.binary?]

theorem semicolon_not_continues {t : Token} (ht : t.kind = .semicolon) (x : Node)
    (rest : List Token) : ¬ Frame.continues .statement x (nextKind (t :: rest)) := by
  simp [Frame.continues, TokenKind.continuesExpression, ht, TokenKind.binary?]

theorem statements_complete (h : RecognizesFrames inner L) (inBlock : Bool) {w : List Token}
    {xs : List Node} (hw : Statements (L .statement) w xs) {rest : List Token}
    (hr : endsStatements inBlock (nextKind rest)) :
    outcome (statements inner inBlock (w ++ rest)) = .ok (xs, rest) := by
  induction hw with
  | @last w x hx =>
    obtain ⟨hc, hs⟩ := endsStatements_not_continues hr x
    rw [outcome_statements, (h.frame .statement).complete hx hc, ok_bind]
    cases rest with
    | nil => rw [outcome_moreStatements_nil]; rfl
    | cons t rest => rw [outcome_moreStatements_cons, if_neg (nextKind_cons t rest ▸ hs)]; rfl
  | @lastEnded w x t hx ht =>
    rw [List.append_assoc, List.singleton_append, outcome_statements,
      (h.frame .statement).complete hx (semicolon_not_continues ht x rest), ok_bind,
      outcome_moreStatements_cons, if_pos ht, if_pos (endsStatements_iff.2 hr)]
    rfl
  | @more w x t v xs hx ht hv ih =>
    have hgo : ¬ endsStatements inBlock (nextKind (v ++ rest)) := by
      obtain ⟨h₁, h₂⟩ := TokenKind.beginsStatement_ne ((hv.begins h).append rest).nextKind
      rintro (h' | ⟨-, h'⟩)
      exacts [h₁ h', h₂ h']
    rw [outcome_statements, bind_eq_ok] at ih
    obtain ⟨⟨y, left⟩, hy, ih⟩ := ih
    rw [bind_eq_ok] at ih
    obtain ⟨⟨ys, left'⟩, hys, ih⟩ := ih
    cases ih
    rw [List.append_assoc, List.cons_append, outcome_statements,
      (h.frame .statement).complete hx (semicolon_not_continues ht x _), ok_bind,
      outcome_moreStatements_cons, if_pos ht, if_neg (by rwa [endsStatements_iff]), hy, ok_bind,
      hys]
    rfl

/-! ## Single statements -/

/-- What a conditional reads is one with an `ELSE` if one follows its first branch. -/
theorem conditional_sound (h : RecognizesFrames inner L) {i : Token} (hi : i.kind = .keyword .if_)
    {ts rest : List Token} {x : Node}
    (ho : outcome (conditional inner i.position ts) = .ok (x, rest)) :
    (∃ w, i :: ts = w ++ rest ∧ Statement L w x) ∧
      (x.isOpen = true → nextKind rest ≠ .keyword .else_) := by
  simp only [outcome_conditional, bind_eq_ok] at ho
  obtain ⟨⟨c, left⟩, hc, ⟨u, left'⟩, hword, ⟨y, left''⟩, hy, ho⟩ := ho
  obtain ⟨w, rfl, hw⟩ := (h.frame .expression).sound hc
  obtain ⟨t, rfl, ht⟩ := outcome_expect_eq_ok.1 hword
  obtain ⟨v, rfl, hv⟩ := (h.frame .statement).sound hy
  cases left'' with
  | nil =>
    cases ho
    exact ⟨⟨i :: (w ++ t :: v), by simp, .when hi hw ht hv⟩, fun _ => by simp [nextKind]⟩
  | cons e left'' =>
    simp only [elseRest] at ho
    split_ifs at ho with he
    · rw [bind_eq_ok] at ho
      obtain ⟨⟨z, left⟩, hz, ho⟩ := ho
      cases ho
      obtain ⟨u, rfl, hu⟩ := (h.frame .statement).sound hz
      have hclosed : y.isOpen = false := by
        by_contra hopen
        exact h.closed hy (by simpa using hopen) he
      refine ⟨⟨i :: (w ++ t :: (v ++ e :: u)), by simp, .choice hi hw ht hv hclosed he hu⟩, ?_⟩
      exact fun hopen => h.closed hz (by simpa [Node.isOpen] using hopen)
    · cases ho
      exact ⟨⟨i :: (w ++ t :: v), by simp, .when hi hw ht hv⟩, fun _ => he⟩

theorem repetition_sound (h : RecognizesFrames inner L) {l : Token}
    (hl : l.kind = .keyword .while_) {ts rest : List Token} {x : Node}
    (ho : outcome (repetition inner l.position ts) = .ok (x, rest)) :
    (∃ w, l :: ts = w ++ rest ∧ Statement L w x) ∧
      (x.isOpen = true → nextKind rest ≠ .keyword .else_) := by
  simp only [outcome_repetition, bind_eq_ok] at ho
  obtain ⟨⟨c, left⟩, hc, ⟨u, left'⟩, hword, ⟨y, left''⟩, hy, ho⟩ := ho
  cases ho
  obtain ⟨w, rfl, hw⟩ := (h.frame .expression).sound hc
  obtain ⟨d, rfl, hd⟩ := outcome_expect_eq_ok.1 hword
  obtain ⟨v, rfl, hv⟩ := (h.frame .statement).sound hy
  refine ⟨⟨l :: (w ++ d :: v), by simp, .loop hl hw hd hv⟩, ?_⟩
  exact fun hopen => h.closed hy (by simpa [Node.isOpen] using hopen)

theorem block_sound (h : RecognizesFrames inner L) {b : Token}
    (hb : b.kind = .keyword .begin_) {ts rest : List Token} {x : Node}
    (ho : outcome (block inner b.position ts) = .ok (x, rest)) :
    (∃ w, b :: ts = w ++ rest ∧ Statement L w x) ∧ x.isOpen = false := by
  rw [outcome_block] at ho
  split_ifs at ho with hk
  · simp only [bind_eq_ok] at ho
    obtain ⟨⟨u, left⟩, hword, ho⟩ := ho
    cases ho
    obtain ⟨e, rfl, he⟩ := outcome_expect_eq_ok.1 hword
    exact ⟨⟨[b, e], rfl, .emptyBlock hb he⟩, rfl⟩
  · simp only [bind_eq_ok] at ho
    obtain ⟨⟨xs, left⟩, hxs, ⟨u, left'⟩, hword, ho⟩ := ho
    cases ho
    obtain ⟨w, rfl, hw⟩ := statements_sound h hxs
    obtain ⟨e, rfl, he⟩ := outcome_expect_eq_ok.1 hword
    exact ⟨⟨b :: (w ++ [e]), by simp, .block hb hw he⟩, rfl⟩

theorem startsAssignment_append {w : List Token} (h : startsAssignment w = true)
    (v : List Token) : startsAssignment (w ++ v) = true := by
  match w, h with
  | _ :: _ :: _, h => exact h

/-- An expression before a token with which it could not go on begins like an
    assignment only if its word does. -/
theorem startsAssignment_append_eq_false {w rest : List Token}
    (hw : startsAssignment w = false) (hne : w ≠ [])
    (hr : ¬ (nextKind rest).continuesExpression) : startsAssignment (w ++ rest) = false := by
  match w, rest, hw, hr with
  | [t], [], _, _ => rfl
  | [t], s :: rest, _, hr =>
    have hs : s.kind ≠ .operator .equal := by
      intro hs
      exact hr (.inr (by simp [hs, TokenKind.binary?]))
    simp [startsAssignment, hs]
  | _ :: _ :: _, _, hw, _ => exact hw

/-- What is read as a statement is one, and after an open one no `ELSE` is left.
    Expressions are never open. -/
theorem statementBody_sound (h : RecognizesFrames inner L)
    (hclosed : ∀ {w x}, L .expression w x → x.isOpen = false) {ts rest : List Token} {x : Node}
    (ho : outcome (statementBody inner ts) = .ok (x, rest)) :
    (∃ w, ts = w ++ rest ∧ Statement L w x) ∧
      (x.isOpen = true → nextKind rest ≠ .keyword .else_) := by
  have plain : ∀ {x : Node}, x.isOpen = false → x.isOpen = true → nextKind rest ≠ .keyword .else_ :=
    fun hx hopen => absurd hopen (by simp [hx])
  have hexpression (ho : outcome (inner .expression ts) = .ok (x, rest))
      (ha : startsAssignment ts = false) :
      (∃ w, ts = w ++ rest ∧ Statement L w x) ∧
        (x.isOpen = true → nextKind rest ≠ .keyword .else_) := by
    obtain ⟨w, rfl, hw⟩ := (h.frame .expression).sound ho
    have hw' : startsAssignment w = false := by
      by_contra hw'
      rw [startsAssignment_append (by simpa using hw') rest] at ha
      cases ha
    exact ⟨⟨w, rfl, .expression hw' hw⟩, plain (hclosed hw)⟩
  cases ts with
  | nil => exact hexpression ho rfl
  | cons t ts =>
    by_cases hi : t.kind = .keyword .if_
    · rw [outcome_statementBody_if inner hi] at ho
      exact conditional_sound h hi ho
    by_cases hl : t.kind = .keyword .while_
    · rw [outcome_statementBody_while inner hl] at ho
      exact repetition_sound h hl ho
    by_cases hb : t.kind = .keyword .begin_
    · rw [outcome_statementBody_begin inner hb] at ho
      obtain ⟨hw, hx⟩ := block_sound h hb ho
      exact ⟨hw, plain hx⟩
    by_cases hlog : t.kind = .keyword .log_
    · rw [outcome_statementBody_log inner hlog, bind_eq_ok] at ho
      obtain ⟨⟨y, left⟩, hy, ho⟩ := ho
      cases ho
      obtain ⟨w, rfl, hw⟩ := (h.frame .expression).sound hy
      exact ⟨⟨t :: w, rfl, .log hlog hw⟩, plain rfl⟩
    cases ha : startsAssignment (t :: ts) with
    | false =>
      rw [outcome_statementBody_expression inner ⟨hi, hl, hlog, hb⟩ ha] at ho
      exact hexpression ho ha
    | true =>
      match ts, ha with
      | sign :: after, ha =>
        simp only [startsAssignment, Bool.and_eq_true, decide_eq_true_eq] at ha
        obtain ⟨hn, hs⟩ := ha
        obtain ⟨n, hn⟩ : ∃ n, t.kind = .name n := by
          cases hk : t.kind <;> simp_all [TokenKind.isName]
        rw [outcome_statementBody_assignment inner hn hs, bind_eq_ok] at ho
        obtain ⟨⟨y, left⟩, hy, ho⟩ := ho
        cases ho
        obtain ⟨w, rfl, hw⟩ := (h.frame .expression).sound hy
        exact ⟨⟨t :: sign :: w, rfl, .assignment hn hs hw⟩, plain rfl⟩

theorem statementBody_complete (h : RecognizesFrames inner L) {w rest : List Token} {x : Node}
    (hw : Statement L w x) (hr : ¬ Frame.continues .statement x (nextKind rest)) :
    outcome (statementBody inner (w ++ rest)) = .ok (x, rest) := by
  have hr' : ¬ (nextKind rest).continuesExpression := fun hk => hr (.inl hk)
  have before_word : ∀ {t : Token} {k : Keyword} {c : Node} (v : List Token),
      t.kind = .keyword k → TokenKind.binary? (.keyword k) = none →
      ¬ Frame.continues .expression c (nextKind (t :: v)) := by
    intro t k c v ht hk
    simp [Frame.continues, TokenKind.continuesExpression, ht, hk]
  cases hw with
  | @when i w c t v y hi hc ht hy =>
    rw [List.cons_append, outcome_statementBody_if inner hi, outcome_conditional,
      List.append_assoc, List.cons_append,
      (h.frame .expression).complete hc (before_word _ ht rfl), ok_bind, outcome_expect_cons,
      if_pos ht, ok_bind]
    have hopen : ¬ nextKind rest = .keyword .else_ := fun he => hr (.inr ⟨rfl, he⟩)
    have hy' : ¬ Frame.continues .statement y (nextKind rest) := by
      rintro (hk | ⟨-, hk⟩)
      exacts [hr' hk, hopen hk]
    rw [(h.frame .statement).complete hy hy', ok_bind]
    cases rest with
    | nil => rfl
    | cons e rest => exact if_neg hopen
  | @choice i w c t v y e u z hi hc ht hy hclosed he hz =>
    rw [List.cons_append, outcome_statementBody_if inner hi, outcome_conditional,
      List.append_assoc, List.cons_append,
      (h.frame .expression).complete hc (before_word _ ht rfl), ok_bind, outcome_expect_cons,
      if_pos ht, ok_bind, List.append_assoc, List.cons_append]
    have hy' : ¬ Frame.continues .statement y (nextKind (e :: (u ++ rest))) := by
      simp [Frame.continues, TokenKind.continuesExpression, he, hclosed, TokenKind.binary?]
    have hz' : ¬ Frame.continues .statement z (nextKind rest) := hr
    rw [(h.frame .statement).complete hy hy', ok_bind]
    simp only [elseRest, he, if_true, (h.frame .statement).complete hz hz', ok_bind]
    rfl
  | @loop l w c d v y hl hc hd hy =>
    have hy' : ¬ Frame.continues .statement y (nextKind rest) := hr
    rw [List.cons_append, outcome_statementBody_while inner hl, outcome_repetition,
      List.append_assoc, List.cons_append,
      (h.frame .expression).complete hc (before_word _ hd rfl), ok_bind, outcome_expect_cons,
      if_pos hd, ok_bind, (h.frame .statement).complete hy hy']
    rfl
  | @log l w y hl hy =>
    rw [List.cons_append, outcome_statementBody_log inner hl,
      (h.frame .expression).complete hy hr']
    rfl
  | @emptyBlock b e hb he =>
    rw [List.cons_append, outcome_statementBody_begin inner hb, outcome_block]
    simp [he, pure, Except.pure]
  | @block b w xs e hb hxs he =>
    have hend : endsStatements true (nextKind (e :: rest)) := .inr ⟨rfl, he⟩
    have hfirst : (currentToken (w ++ e :: rest)).kind ≠ .keyword .end_ :=
      (TokenKind.beginsStatement_ne ((hxs.begins h).append (e :: rest)).nextKind).2
    rw [List.cons_append, outcome_statementBody_begin inner hb, List.append_assoc,
      List.singleton_append, outcome_block, if_neg hfirst,
      statements_complete h true hxs hend]
    simp [he, pure, Except.pure]
  | @assignment t n s w y ht hs hy =>
    rw [List.cons_append, List.cons_append, outcome_statementBody_assignment inner ht hs,
      (h.frame .expression).complete hy hr']
    rfl
  | expression ha hx =>
    obtain ⟨t, v, rfl, ht⟩ := h.begins hx
    obtain ⟨-, hi, hl, hlog, hb⟩ := TokenKind.beginsExpression_ne ht
    have ha' : startsAssignment (t :: (v ++ rest)) = false :=
      startsAssignment_append_eq_false ha (by simp) hr'
    have hx' := (h.frame .expression).complete hx hr'
    rw [List.cons_append] at hx' ⊢
    rw [outcome_statementBody_expression inner ⟨hi, hl, hlog, hb⟩ ha', hx']

end

end Rulebook

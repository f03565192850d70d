/-
  Rereading — the words of a tree are read as this tree.

  * `Node.depthIn`, `Node.depth`: how deep the frames nest in the words of an
    expression and of a statement.
  * `Rereads L ks x`: from words of the kinds `ks` the language `L` derives the
    tree `x`, up to offsets. `Rereads.group`, `Rereads.step` and the like put
    together what the grammar puts together.
  * `Node.IsTerm.rereads`, `Node.IsCommand.rereads`: an expression and a settled
    statement are read back from their words within their depth.
-/
import Rulebook.Proofs.Writing
import Rulebook.Proofs.Acceptance

namespace Rulebook

/-! ## Depth -/

/-- How many frames nest in an operation, from how many do in its operands: what
    stands after `^` is a frame. -/
def BinaryOperator.depth (op : BinaryOperator) (left right : Nat) : Nat :=
  max left (if op = .power then right + 1 else right)

mutual

/-- How many frames nest in the words of an expression, as the left operand of
    an operator of `tier`. -/
def Node.depthIn (tier : Option Tier) : Node → Nat
  | .unary _ x _ => x.depthIn none + 2
  | .binary o l r _ =>
    let operation := o.depth (l.depthIn o.tier?) (r.depthIn none)
    if tier.isSome && o.tier? = tier then operation else operation + 1
  | .call _ xs _ => depthOfArguments xs
  | _ => 0
termination_by structural x => x

/-- How many frames nest in the arguments of a call. -/
def depthOfArguments : List Node → Nat
  | [] => 0
  | x :: xs => max (x.depthIn none + 1) (depthOfArguments xs)
termination_by structural xs => xs

end

mutual

/-- How many frames nest in the words of a statement, itself counted. -/
def Node.depth : Node → Nat
  | .when c t _ => max (c.depthIn none + 1) t.depth + 1
  | .choice c t e _ => max (c.depthIn none + 1) (max t.depth e.depth) + 1
  | .loop c b _ => max (c.depthIn none + 1) b.depth + 1
  | .sequence xs _ => depthOfStatements xs + 1
  | .assignment _ x _ | .log x _ => x.depthIn none + 2
  | x => x.depthIn none + 2
termination_by structural x => x

/-- How many frames nest in several statements. -/
def depthOfStatements : List Node → Nat
  | [] => 0
  | x :: xs => max x.depth (depthOfStatements xs)
termination_by structural xs => xs

end

theorem depthOfArguments_le_iff {xs : List Node} {n : ℕ} :
    depthOfArguments xs ≤ n ↔ ∀ x ∈ xs, x.depthIn none + 1 ≤ n := by
  induction xs with
  | nil => simp [depthOfArguments]
  | cons x xs ih => simp [depthOfArguments, ih]

theorem depthOfStatements_le_iff {xs : List Node} {n : ℕ} :
    depthOfStatements xs ≤ n ↔ ∀ x ∈ xs, x.depth ≤ n := by
  induction xs with
  | nil => simp [depthOfStatements]
  | cons x xs ih => simp [depthOfStatements, ih]

/-- The statement that an expression is nests two frames more. -/
theorem Node.depth_of_isExpression {x : Node} (h : x.isExpression = true) :
    x.depth = x.depthIn none + 2 := by
  cases x <;> first | rfl | cases h

/-! ## Levels of the grammar -/

/-- The operands between the operators of a tier. -/
def Operands (inner : Frame → Language Node) : Tier → Language Node
  | .product => Power inner
  | .sum => Chain .product <| Power inner
  | .relation => Chain .sum <| Chain .product <| Power inner
  | .equality => Chain .relation <| Chain .sum <| Chain .product <| Power inner
  | .conjunction =>
    Chain .equality <| Chain .relation <| Chain .sum <| Chain .product <| Power inner
  | .disjunction =>
    Chain .conjunction <| Chain .equality <| Chain .relation <| Chain .sum <| Chain .product <|
      Power inner

/-- The operations of a tier, and the powers. -/
def Operations (inner : Frame → Language Node) : Option Tier → Language Node
  | some tier => Chain tier (Operands inner tier)
  | none => Power inner

/-- What stands as the left operand in a tier. -/
def LeftOperand (inner : Frame → Language Node) : Option Tier → Language Node
  | some tier => Chain tier (Operands inner tier)
  | none => Primary inner

section
variable {inner : Frame → Language Node} {w : List Token} {x : Node}

theorem Power.operands (h : Power inner w x) (tier : Tier) : Operands inner tier w x := by
  cases tier with
  | product => exact h
  | sum => exact .single h
  | relation => exact .single (.single h)
  | equality => exact .single (.single (.single h))
  | conjunction => exact .single (.single (.single (.single h)))
  | disjunction => exact .single (.single (.single (.single (.single h))))

theorem Chain.expression {tier : Tier} (h : Chain tier (Operands inner tier) w x) :
    Expression inner w x := by
  cases tier with
  | disjunction => exact h
  | conjunction => exact .single h
  | equality => exact .single (.single h)
  | relation => exact .single (.single (.single h))
  | sum => exact .single (.single (.single (.single h)))
  | product => exact .single (.single (.single (.single (.single h))))

theorem Power.expression (h : Power inner w x) : Expression inner w x :=
  Chain.expression (.single (h.operands .product))

theorem Operations.expression {tier : Option Tier} (h : Operations inner tier w x) :
    Expression inner w x := by
  cases tier with
  | none => exact Power.expression h
  | some tier => exact Chain.expression h

theorem Primary.power (h : Primary inner w x) : Power inner w x := .base (.primary h)

theorem Primary.leftOperand (h : Primary inner w x) (tier : Option Tier) :
    LeftOperand inner tier w x := by
  cases tier with
  | none => exact h
  | some tier => exact .single (h.power.operands tier)

/-- A primary expression is no beginning of an assignment. -/
theorem Primary.startsAssignment (h : Primary inner w x) : startsAssignment w = false := by
  cases h with
  | literal | reference => rfl
  | emptyCall _ hl | call _ hl => simp [Rulebook.startsAssignment, hl]
  | @group l r w x hl =>
    have hname : l.kind.isName = false := by rw [hl]; rfl
    cases w <;> simp [Rulebook.startsAssignment, hname]

end

/-! ## Reading words back -/

/-- Words of these kinds are read as this tree, up to offsets. -/
def Rereads (L : Language Node) (ks : List TokenKind) (x : Node) : Prop :=
  ∀ w : List Token, w.map (·.kind) = ks → ∃ y, L w y ∧ y.bare = x.bare

namespace Rereads

variable {L L' : Language Node} {inner : Frame → Language Node} {ks ls : List TokenKind}
  {x y c l r : Node} {p : Option Nat} {n : String}

theorem mono (hL : ∀ {w y}, L w y → L' w y) (h : Rereads L ks x) : Rereads L' ks x := by
  intro w hw
  obtain ⟨y, hy, hbare⟩ := h w hw
  exact ⟨y, hL hy, hbare⟩

theorem literal {v : Value} : Rereads (Primary inner) [v.literalKind] (.literal v p) := by
  intro w hw
  obtain ⟨t, rfl, ht⟩ := List.map_eq_singleton_iff.1 hw
  exact ⟨_, .literal (ht ▸ literal?_literalKind v), rfl⟩

theorem reference : Rereads (Primary inner) [.name n] (.reference n p) := by
  intro w hw
  obtain ⟨t, rfl, ht⟩ := List.map_eq_singleton_iff.1 hw
  exact ⟨_, .reference ht, rfl⟩

theorem group (h : Rereads (inner .expression) ks x) :
    Rereads (Primary inner) (.leftParen :: (ks ++ [.rightParen])) x := by
  intro w hw
  obtain ⟨l, w, rfl, hl, hw⟩ := List.map_eq_cons_iff.1 hw
  obtain ⟨v, u, rfl, hv, hu⟩ := List.map_eq_append_iff.1 hw
  obtain ⟨r, rfl, hr⟩ := List.map_eq_singleton_iff.1 hu
  obtain ⟨y, hy, hbare⟩ := h v hv
  exact ⟨y, .group hl hr hy, hbare⟩

theorem unary {op : UnaryOperator} (hop : ∀ s, op ≠ .other s) (h : Rereads (inner .operand) ks x) :
    Rereads (Unary inner) (op.kind :: ks) (.unary op x p) := by
  intro w hw
  obtain ⟨t, w, rfl, ht, hw⟩ := List.map_eq_cons_iff.1 hw
  obtain ⟨y, hy, hbare⟩ := h w hw
  have hkind : t.kind.unary? = some op := ht ▸ unary?_kind hop
  exact ⟨_, .operation hkind hy, Node.Alike.unary hbare⟩

theorem power (hl : Rereads (Unary inner) ks l) (hr : Rereads (inner .exponent) ls r) :
    Rereads (Power inner) (ks ++ BinaryOperator.power.kind :: ls) (.binary .power l r p) := by
  intro w hw
  obtain ⟨u, v, rfl, hu, hv⟩ := List.map_eq_append_iff.1 hw
  obtain ⟨t, v, rfl, ht, hv⟩ := List.map_eq_cons_iff.1 hv
  obtain ⟨l', hl', hlbare⟩ := hl u hu
  obtain ⟨r', hr', hrbare⟩ := hr v hv
  exact ⟨_, .power hl' ht hr', Node.Alike.binary hlbare hrbare⟩

theorem step {tier : Tier} {op : BinaryOperator} (htier : op.tier? = some tier)
    (hl : Rereads (Chain tier L) ks l) (hr : Rereads L ls r) :
    Rereads (Chain tier L) (ks ++ op.kind :: ls) (.binary op l r p) := by
  intro w hw
  obtain ⟨u, v, rfl, hu, hv⟩ := List.map_eq_append_iff.1 hw
  obtain ⟨t, v, rfl, ht, hv⟩ := List.map_eq_cons_iff.1 hv
  obtain ⟨l', hl', hlbare⟩ := hl u hu
  obtain ⟨r', hr', hrbare⟩ := hr v hv
  have hkind : t.kind.tierOperator? tier = some op := by
    refine TokenKind.tierOperator?_eq_some.2 ⟨ht ▸ binary?_kind ?_, htier⟩
    rintro s rfl
    cases htier
  exact ⟨_, .step hl' hkind hr', Node.Alike.binary hlbare hrbare⟩

/-- Several phrases, read back one after the other. -/
theorem separated {k : TokenKind} : ∀ {xs : List Node}, xs ≠ [] →
    (∀ x ∈ xs, Rereads L x.kinds x) → ∀ {w : List Token},
    w.map (·.kind) = joinedKinds k (kindsAll xs) →
    ∃ ys, Separated k L w ys ∧ bareAll ys = bareAll xs
  | [], hne, _, _, _ => absurd rfl hne
  | [x], _, h, w, hw => by
    obtain ⟨y, hy, hbare⟩ := h x (by simp) w hw
    exact ⟨[y], .one hy, NodesAlike.cons hbare rfl⟩
  | x :: z :: xs, _, h, w, hw => by
    obtain ⟨u, v, rfl, hu, hv⟩ := List.map_eq_append_iff.1 hw
    obtain ⟨t, v, rfl, ht, hv⟩ := List.map_eq_cons_iff.1 hv
    obtain ⟨y, hy, hbare⟩ := h x (by simp) u hu
    obtain ⟨ys, hys, hbares⟩ :=
      separated (by simp) (fun x' hx' => h x' (List.mem_cons_of_mem x hx')) hv
    exact ⟨y :: ys, .more hy ht hys, NodesAlike.cons hbare hbares⟩

theorem call {xs : List Node} (h : ∀ x ∈ xs, Rereads (inner .expression) x.kinds x) :
    Rereads (Primary inner)
      (.name n :: .leftParen :: (joinedKinds .comma (kindsAll xs) ++ [.rightParen]))
      (.call n xs p) := by
  intro w hw
  obtain ⟨t, w, rfl, ht, hw⟩ := List.map_eq_cons_iff.1 hw
  obtain ⟨l, w, rfl, hl, hw⟩ := List.map_eq_cons_iff.1 hw
  obtain ⟨v, u, rfl, hv, hu⟩ := List.map_eq_append_iff.1 hw
  obtain ⟨r, rfl, hr⟩ := List.map_eq_singleton_iff.1 hu
  by_cases hne : xs = []
  · subst hne
    obtain rfl := List.map_eq_nil_iff.1 hv
    exact ⟨_, .emptyCall ht hl hr, rfl⟩
  · obtain ⟨ys, hys, hbare⟩ := separated hne h hv
    exact ⟨_, .call ht hl hr hys, Node.Alike.call hbare⟩

end Rereads

/-! ## Expressions -/

theorem Phrase.of_primary {n : ℕ} {w : List Token} {x : Node} (h : Primary (Phrase n) w x)
    {f : Frame} (hf : f ≠ .statement) : Phrase (n + 1) f w x := by
  cases f with
  | statement => exact absurd rfl hf
  | expression => exact h.power.expression
  | operand => exact .primary h
  | exponent => exact h.power

theorem BinaryOperator.eq_power {op : BinaryOperator} (hop : ∀ s, op ≠ .other s)
    (h : op.tier? = none) : op = .power := by
  cases op with
  | other s => exact absurd rfl (hop s)
  | power => rfl
  | _ => cases h

theorem Rereads.operation {op : BinaryOperator} (hop : ∀ s, op ≠ .other s) {l r : Node}
    {p : Option ℕ} {ks : List TokenKind} {n : ℕ}
    (hl : Rereads (LeftOperand (Phrase n) op.tier?) ks l)
    (hr : ∀ {m}, r.depthIn none ≤ m → Rereads (Primary (Phrase m)) r.kinds r)
    (hn : (if op = .power then r.depthIn none + 1 else r.depthIn none) ≤ n) :
    Rereads (Operations (Phrase n) op.tier?) (ks ++ op.kind :: r.kinds) (.binary op l r p) := by
  cases htier : op.tier? with
  | none =>
    obtain rfl := op.eq_power hop htier
    rw [if_pos rfl] at hn
    obtain ⟨m, rfl⟩ : ∃ m, n = m + 1 := ⟨n - 1, by omega⟩
    have hexponent : Rereads (Phrase (m + 1) .exponent) r.kinds r :=
      (hr (Nat.le_of_succ_le_succ hn)).mono fun hy => Phrase.of_primary hy (by simp)
    exact Rereads.power (hl.mono .primary) hexponent
  | some tier =>
    have hne : op ≠ .power := by
      rintro rfl
      cases htier
    rw [if_neg hne] at hn
    rw [htier] at hl
    exact Rereads.step htier hl ((hr hn).mono fun hy => hy.power.operands tier)

/-- **An expression is read back from its words**, within its depth. -/
theorem Node.IsTerm.rereads {x : Node} (h : x.IsTerm) :
    ∀ {tier : Option Tier} {n : ℕ}, x.depthIn tier ≤ n →
      Rereads (LeftOperand (Phrase n) tier) (x.kindsIn tier) x := by
  induction h with
  | literal => exact fun _ => Rereads.literal.mono (·.leftOperand _)
  | reference => exact fun _ => Rereads.reference.mono (·.leftOperand _)
  | @unary op x p hop _ ih =>
    intro tier n hn
    obtain ⟨m, rfl⟩ : ∃ m, n = m + 2 := ⟨n - 2, by simp only [depthIn] at hn; omega⟩
    have hx : Rereads (Primary (Phrase m)) x.kinds x := @ih none m (by
      simp only [depthIn] at hn
      omega)
    have hoperand : Rereads (Phrase (m + 1) .operand) x.kinds x :=
      hx.mono fun hy => Phrase.of_primary hy (by simp)
    have hoperation : Rereads (Phrase (m + 2) .expression) (op.kind :: x.kinds) (.unary op x p) :=
      (hoperand.unary hop).mono fun hy => Power.expression (.base hy)
    exact hoperation.group.mono (·.leftOperand tier)
  | @binary op l r p hop _ _ ihl ihr =>
    intro tier n hn
    have hoperation : ∀ {m}, op.depth (l.depthIn op.tier?) (r.depthIn none) ≤ m →
        Rereads (Operations (Phrase m) op.tier?) (l.kindsIn op.tier? ++ op.kind :: r.kinds)
          (.binary op l r p) :=
      fun hm => Rereads.operation hop (ihl (le_of_max_le_left hm)) ihr (le_of_max_le_right hm)
    rw [kindsIn]
    simp only [depthIn] at hn
    split
    · next h =>
      rw [if_pos h] at hn
      simp only [Bool.and_eq_true, decide_eq_true_eq] at h
      obtain ⟨tier, rfl⟩ := Option.isSome_iff_exists.1 h.1
      have hsame := hoperation hn
      rw [h.2] at hsame ⊢
      exact hsame
    · next h =>
      rw [if_neg h] at hn
      obtain ⟨m, rfl⟩ : ∃ m, n = m + 1 := ⟨n - 1, by omega⟩
      have hexpression : Rereads (Phrase (m + 1) .expression) _ _ :=
        (hoperation (Nat.le_of_succ_le_succ hn)).mono Operations.expression
      exact hexpression.group.mono (·.leftOperand tier)
  | @call name xs p _ _ ih =>
    intro tier n hn
    refine Rereads.mono (fun hy => Primary.leftOperand hy tier) (Rereads.call fun x hx => ?_)
    have hx' : x.depthIn none + 1 ≤ n := depthOfArguments_le_iff.1 hn x hx
    obtain ⟨m, rfl⟩ : ∃ m, n = m + 1 := ⟨n - 1, by omega⟩
    have hrereads : Rereads (Primary (Phrase m)) x.kinds x := @ih x hx none m (by omega)
    exact hrereads.mono fun hy => Phrase.of_primary hy (by simp)

/-! ## Statements -/

namespace Rereads

section
variable {inner : Frame → Language Node} {ks ls ms : List TokenKind} {x c t e : Node}
  {p : Option ℕ} {n : String}

theorem when (hc : Rereads (inner .expression) ks c) (ht : Rereads (inner .statement) ls t) :
    Rereads (Statement inner) (.keyword .if_ :: (ks ++ .keyword .then_ :: ls)) (.when c t p) := by
  intro w hw
  obtain ⟨i, w, rfl, hi, hw⟩ := List.map_eq_cons_iff.1 hw
  obtain ⟨u, v, rfl, hu, hv⟩ := List.map_eq_append_iff.1 hw
  obtain ⟨then_, v, rfl, hthen, hv⟩ := List.map_eq_cons_iff.1 hv
  obtain ⟨c', hc', hcbare⟩ := hc u hu
  obtain ⟨t', ht', htbare⟩ := ht v hv
  exact ⟨_, .when hi hc' hthen ht', Node.Alike.when hcbare htbare⟩

theorem choice (hc : Rereads (inner .expression) ks c) (ht : Rereads (inner .statement) ls t)
    (hopen : t.isOpen = false) (he : Rereads (inner .statement) ms e) :
    Rereads (Statement inner)
      (.keyword .if_ :: (ks ++ .keyword .then_ :: (ls ++ .keyword .else_ :: ms)))
      (.choice c t e p) := by
  intro w hw
  obtain ⟨i, w, rfl, hi, hw⟩ := List.map_eq_cons_iff.1 hw
  obtain ⟨u, w, rfl, hu, hw⟩ := List.map_eq_append_iff.1 hw
  obtain ⟨then_, w, rfl, hthen, hw⟩ := List.map_eq_cons_iff.1 hw
  obtain ⟨v, w, rfl, hv, hw⟩ := List.map_eq_append_iff.1 hw
  obtain ⟨else_, w, rfl, helse, hw⟩ := List.map_eq_cons_iff.1 hw
  obtain ⟨c', hc', hcbare⟩ := hc u hu
  obtain ⟨t', ht', htbare⟩ := ht v hv
  obtain ⟨e', he', hebare⟩ := he w hw
  have hopen' : t'.isOpen = false := (Node.isOpen_eq_of_bare htbare).trans hopen
  exact ⟨_, .choice hi hc' hthen ht' hopen' helse he', Node.Alike.choice hcbare htbare hebare⟩

theorem loop (hc : Rereads (inner .expression) ks c) (hb : Rereads (inner .statement) ls x) :
    Rereads (Statement inner) (.keyword .while_ :: (ks ++ .keyword .do_ :: ls)) (.loop c x p) := by
  intro w hw
  obtain ⟨l, w, rfl, hl, hw⟩ := List.map_eq_cons_iff.1 hw
  obtain ⟨u, v, rfl, hu, hv⟩ := List.map_eq_append_iff.1 hw
  obtain ⟨d, v, rfl, hd, hv⟩ := List.map_eq_cons_iff.1 hv
  obtain ⟨c', hc', hcbare⟩ := hc u hu
  obtain ⟨b', hb', hbbare⟩ := hb v hv
  exact ⟨_, .loop hl hc' hd hb', Node.Alike.loop hcbare hbbare⟩

theorem log (hx : Rereads (inner .expression) ks x) :
    Rereads (Statement inner) (.keyword .log_ :: ks) (.log x p) := by
  intro w hw
  obtain ⟨l, w, rfl, hl, hw⟩ := List.map_eq_cons_iff.1 hw
  obtain ⟨y, hy, hbare⟩ := hx w hw
  exact ⟨_, .log hl hy, Node.Alike.log hbare⟩

theorem assignment (hx : Rereads (inner .expression) ks x) :
    Rereads (Statement inner) (.name n :: .operator .equal :: ks) (.assignment n x p) := by
  intro w hw
  obtain ⟨t, w, rfl, ht, hw⟩ := List.map_eq_cons_iff.1 hw
  obtain ⟨s, w, rfl, hs, hw⟩ := List.map_eq_cons_iff.1 hw
  obtain ⟨y, hy, hbare⟩ := hx w hw
  exact ⟨_, .assignment ht hs hy, Node.Alike.assignment hbare⟩

/-- Statements, read back one after the other. -/
theorem statements {L : Language Node} {xs : List Node} (hne : xs ≠ [])
    (h : ∀ x ∈ xs, Rereads L x.kinds x) {w : List Token}
    (hw : w.map (·.kind) = joinedKinds .semicolon (kindsAll xs)) :
    ∃ ys, Statements L w ys ∧ bareAll ys = bareAll xs := by
  obtain ⟨ys, hys, hbare⟩ := separated hne h hw
  refine ⟨ys, ?_, hbare⟩
  clear hbare hw
  induction hys with
  | one hy => exact .last hy
  | more hy ht _ ih => exact .more hy ht ih

theorem block {xs : List Node} (h : ∀ x ∈ xs, Rereads (inner .statement) x.kinds x) :
    Rereads (Statement inner)
      (.keyword .begin_ :: (joinedKinds .semicolon (kindsAll xs) ++ [.keyword .end_]))
      (.sequence xs p) := by
  intro w hw
  obtain ⟨b, w, rfl, hb, hw⟩ := List.map_eq_cons_iff.1 hw
  obtain ⟨v, u, rfl, hv, hu⟩ := List.map_eq_append_iff.1 hw
  obtain ⟨e, rfl, he⟩ := List.map_eq_singleton_iff.1 hu
  by_cases hne : xs = []
  · subst hne
    obtain rfl := List.map_eq_nil_iff.1 hv
    exact ⟨_, .emptyBlock hb he, rfl⟩
  · obtain ⟨ys, hys, hbare⟩ := statements hne h hv
    exact ⟨_, .block hb hys he, Node.Alike.sequence hbare⟩

end

/-- An expression as a statement: it begins no assignment. -/
theorem expression {m : ℕ} {ks : List TokenKind} {x : Node}
    (h : Rereads (Primary (Phrase m)) ks x) : Rereads (Statement (Phrase (m + 1))) ks x := by
  intro w hw
  obtain ⟨y, hy, hbare⟩ := h w hw
  exact ⟨y, .expression hy.startsAssignment (Phrase.of_primary hy (by simp)), hbare⟩

end Rereads

theorem Node.IsTerm.rereads_expression {x : Node} (h : x.IsTerm) {n : ℕ}
    (hn : x.depthIn none + 1 ≤ n) : Rereads (Phrase n .expression) x.kinds x := by
  obtain ⟨m, rfl⟩ : ∃ m, n = m + 1 := ⟨n - 1, by omega⟩
  have hx : Rereads (Primary (Phrase m)) x.kinds x := h.rereads (Nat.le_of_succ_le_succ hn)
  exact hx.mono fun hy => Phrase.of_primary hy (by simp)

/-- **A settled statement is read back from its words**, within its depth. -/
theorem Node.IsCommand.rereads {x : Node} (h : x.IsCommand) :
    x.IsSettled → ∀ {n : ℕ}, x.depth ≤ n → Rereads (Phrase n .statement) x.kinds x := by
  induction h with
  | @expression x hx =>
    intro _ n hn
    rw [depth_of_isExpression hx.isExpression] at hn
    obtain ⟨m, rfl⟩ : ∃ m, n = m + 2 := ⟨n - 2, by omega⟩
    have hprimary : Rereads (Primary (Phrase m)) x.kinds x := hx.rereads (by omega)
    exact hprimary.expression
  | @when c t p hc _ ih =>
    intro hsettled n hn
    simp only [depth] at hn
    obtain ⟨m, rfl⟩ : ∃ m, n = m + 1 := ⟨n - 1, by omega⟩
    have ht : t.IsSettled := (isSettled_iff.1 hsettled).2 t (by simp [children])
    exact .when (hc.rereads_expression (by omega)) (ih ht (by omega))
  | @choice c t e p hc _ _ iht ihe =>
    intro hsettled n hn
    simp only [depth] at hn
    obtain ⟨m, rfl⟩ : ∃ m, n = m + 1 := ⟨n - 1, by omega⟩
    obtain ⟨hkeeps, hchildren⟩ := isSettled_iff.1 hsettled
    have ht : t.IsSettled := hchildren t (by simp [children])
    have he : e.IsSettled := hchildren e (by simp [children])
    have hopen : t.isOpen = false := by simpa [keepsElse] using hkeeps
    exact .choice (hc.rereads_expression (by omega)) (iht ht (by omega)) hopen
      (ihe he (by omega))
  | @loop c b p hc _ ih =>
    intro hsettled n hn
    simp only [depth] at hn
    obtain ⟨m, rfl⟩ : ∃ m, n = m + 1 := ⟨n - 1, by omega⟩
    have hb : b.IsSettled := (isSettled_iff.1 hsettled).2 b (by simp [children])
    exact .loop (hc.rereads_expression (by omega)) (ih hb (by omega))
  | @sequence xs p _ ih =>
    intro hsettled n hn
    simp only [depth] at hn
    obtain ⟨m, rfl⟩ : ∃ m, n = m + 1 := ⟨n - 1, by omega⟩
    have hdepth := depthOfStatements_le_iff.1 (Nat.le_of_succ_le_succ hn)
    exact .block fun x hx => ih x hx ((isSettled_iff.1 hsettled).2 x hx) (hdepth x hx)
  | @assignment name x p _ hx =>
    intro _ n hn
    simp only [depth] at hn
    obtain ⟨m, rfl⟩ : ∃ m, n = m + 1 := ⟨n - 1, by omega⟩
    exact .assignment (hx.rereads_expression (by omega))
  | @log x p hx =>
    intro _ n hn
    simp only [depth] at hn
    obtain ⟨m, rfl⟩ : ∃ m, n = m + 1 := ⟨n - 1, by omega⟩
    exact .log (hx.rereads_expression (by omega))

/-! ## Scripts -/

/-- How many frames nest in the words of a script. -/
def Node.scriptDepth : Node → Nat
  | .sequence (x :: y :: rest) _ => depthOfStatements (x :: y :: rest)
  | x => x.depth

theorem Node.scriptDepth_eq_depth {x : Node} (h : ¬ x.IsSeries) : x.scriptDepth = x.depth := by
  unfold scriptDepth
  split
  · exact absurd ⟨_, _, _, _, rfl⟩ h
  · rfl

theorem Node.scriptDepth_le (x : Node) : x.scriptDepth ≤ x.depth := by
  by_cases h : x.IsSeries
  · obtain ⟨y, z, rest, p, rfl⟩ := h
    exact Nat.le_succ _
  · exact (scriptDepth_eq_depth h).le

/-- **A settled script is read back from its words**, within its depth. -/
theorem Node.IsCommand.rereads_script {x : Node} (h : x.IsCommand) (hsettled : x.IsSettled)
    {n : ℕ} (hn : x.scriptDepth ≤ n) : Rereads (ReadsAs n .script) x.scriptKinds x := by
  intro w hw
  by_cases hseries : x.IsSeries
  · obtain ⟨y, z, rest, p, rfl⟩ := hseries
    have hchildren := (isSettled_iff.1 hsettled).2
    have hdepths := depthOfStatements_le_iff.1 hn
    cases h with
    | expression h => cases h
    | sequence hxs =>
      obtain ⟨ys, hys, hbare⟩ := Rereads.statements (by simp)
        (fun x hx => (hxs x hx).rereads (hchildren x hx) (hdepths x hx)) hw
      exact ⟨_, ⟨ys, hys, rfl⟩, (asScript_alike hbare).trans rfl⟩
  · rw [scriptKinds_eq_kinds hseries] at hw
    rw [scriptDepth_eq_depth hseries] at hn
    obtain ⟨y, hy, hbare⟩ := h.rereads hsettled hn w hw
    exact ⟨y, ⟨[y], .last hy, rfl⟩, hbare⟩

end Rulebook

/-
  Expressions — the parts of a tree, and the trees without statements.

  `Node.isExpression` tells expressions; the frames of the grammar other than
  statements derive nothing else (`Phrase.isExpression`), and none of them is open.
-/
import Mathlib.Tactic.Common
import Rulebook.Proofs.Grammar

namespace Rulebook

/-! ## The parts of a tree -/

theorem mem_walkAll {y : Node} {xs : List Node} : y ∈ walkAll xs ↔ ∃ x ∈ xs, y ∈ x.walk := by
  induction xs with
  | nil => simp [walkAll]
  | cons x xs ih => simp [walkAll, ih]

theorem walkAll_append (xs ys : List Node) : walkAll (xs ++ ys) = walkAll xs ++ walkAll ys := by
  induction xs with
  | nil => rfl
  | cons x xs ih => simp [walkAll, ih]

/-- A tree has itself and all that its children have. -/
theorem Node.mem_walk {x y : Node} : y ∈ x.walk ↔ y = x ∨ ∃ z ∈ x.children, y ∈ z.walk := by
  cases x <;> simp [Node.walk, Node.children, mem_walkAll]

/-! ## The trees of expressions -/

mutual

/-- A tree of literals, variables, operators and calls. -/
def Node.isExpression : Node → Bool
  | .literal .. | .reference .. => true
  | .unary _ x _ => x.isExpression
  | .binary _ l r _ => l.isExpression && r.isExpression
  | .call _ xs _ => areExpressions xs
  | _ => false
termination_by structural x => x

/-- Trees of expressions. -/
def areExpressions : List Node → Bool
  | [] => true
  | x :: xs => x.isExpression && areExpressions xs
termination_by structural xs => xs

end

theorem areExpressions_iff {xs : List Node} :
    areExpressions xs = true ↔ ∀ x ∈ xs, x.isExpression = true := by
  induction xs with
  | nil => simp [areExpressions]
  | cons x xs ih => simp [areExpressions, ih]

/-- An expression is not open: no `ELSE` can belong to it. -/
theorem Node.isOpen_of_isExpression {x : Node} (h : x.isExpression = true) :
    x.isOpen = false := by
  cases x <;> simp_all [Node.isExpression, Node.isOpen]

/-! ## What the grammar derives -/

section
variable {inner : Frame → Language Node}

theorem Separated.areExpressions {k : TokenKind} {L : Language Node}
    (hL : ∀ {w x}, L w x → x.isExpression = true) {w : List Token} {xs : List Node}
    (h : Separated k L w xs) : areExpressions xs = true := by
  induction h with
  | one hx => simp [Rulebook.areExpressions, hL hx]
  | more hx _ _ ih => simp [Rulebook.areExpressions, hL hx, ih]

theorem Chain.isExpression {tier : Tier} {L : Language Node}
    (hL : ∀ {w x}, L w x → x.isExpression = true) {w : List Token} {x : Node}
    (h : Chain tier L w x) : x.isExpression = true := by
  induction h with
  | single hx => exact hL hx
  | step _ _ hy ih => simp [Node.isExpression, ih, hL hy]

variable (hinner : ∀ {f w x}, f ≠ .statement → inner f w x → x.isExpression = true)
include hinner

theorem Unary.isExpression {w : List Token} {x : Node} (h : Unary inner w x) :
    x.isExpression = true := by
  cases h with
  | primary hp =>
    cases hp with
    | literal | reference | emptyCall => rfl
    | call _ _ _ hxs => exact hxs.areExpressions fun hx => hinner (by simp) hx
    | group _ _ hx => exact hinner (by simp) hx
  | @operation t op w y _ hx =>
    have hy : y.isExpression = true := hinner (by simp) hx
    simp [Node.isExpression, hy]

theorem Power.isExpression {w : List Token} {x : Node} (h : Power inner w x) :
    x.isExpression = true := by
  cases h with
  | base hx => exact hx.isExpression hinner
  | power hx _ hy =>
    simp [Node.isExpression, hx.isExpression hinner, hinner (by simp) hy]

theorem Expression.isExpression {w : List Token} {x : Node} (h : Expression inner w x) :
    x.isExpression = true := by
  unfold Expression at h
  exact h.isExpression <| Chain.isExpression <| Chain.isExpression <| Chain.isExpression <|
    Chain.isExpression <| Chain.isExpression <| Power.isExpression hinner

end

/-- Every frame but a statement derives expressions only. -/
theorem Phrase.isExpression {n : Nat} : ∀ {f : Frame} {w : List Token} {x : Node},
    f ≠ .statement → Phrase n f w x → x.isExpression = true := by
  induction n with
  | zero => exact fun _ h => h.elim
  | succ n ih =>
    intro f w x hf h
    cases f with
    | statement => exact absurd rfl hf
    | expression => exact Expression.isExpression ih h
    | operand => exact Unary.isExpression ih h
    | exponent => exact Power.isExpression ih h

end Rulebook

/-
  Trees — the trees that a text can hold.

  * `Node.IsTerm`, `Node.IsCommand`: expressions and statements whose literals
    can be written, whose names are names of the language and whose operators
    belong to it.
  * `Node.IsSettled`: no `ELSE` of the tree would belong to another `IF` once the
    tree is written out.
  * `Node.Alike x y`: the trees are the same but for places, so what is put together of
    such trees is.
  * `Node.isOpen_eq_of_bare`: being open does not depend on where a tree was read.
-/
import Rulebook.Proofs.Expressions
import Rulebook.Proofs.Spelling

namespace Rulebook

/-! ## Expressions and statements -/

/-- An expression of the language. -/
inductive Node.IsTerm : Node → Prop
  | literal {v p} : v.IsWritable → IsTerm (.literal v p)
  | reference {n p} : IsName n → IsTerm (.reference n p)
  | unary {op x p} : (∀ s, op ≠ .other s) → x.IsTerm → IsTerm (.unary op x p)
  | binary {op l r p} : (∀ s, op ≠ .other s) → l.IsTerm → r.IsTerm → IsTerm (.binary op l r p)
  | call {n xs p} : IsName n → (∀ x ∈ xs, IsTerm x) → IsTerm (.call n xs p)

/-- A statement of the language. -/
inductive Node.IsCommand : Node → Prop
  | expression {x} : x.IsTerm → IsCommand x
  | when {c t p} : c.IsTerm → t.IsCommand → IsCommand (.when c t p)
  | choice {c t e p} : c.IsTerm → t.IsCommand → e.IsCommand → IsCommand (.choice c t e p)
  | loop {c b p} : c.IsTerm → b.IsCommand → IsCommand (.loop c b p)
  | sequence {xs p} : (∀ x ∈ xs, IsCommand x) → IsCommand (.sequence xs p)
  | assignment {n x p} : IsName n → x.IsTerm → IsCommand (.assignment n x p)
  | log {x p} : x.IsTerm → IsCommand (.log x p)

theorem Node.IsTerm.isExpression {x : Node} (h : x.IsTerm) : x.isExpression = true := by
  induction h with
  | literal | reference => rfl
  | unary _ _ ih => exact ih
  | binary _ _ _ ihl ihr => simp [Node.isExpression, ihl, ihr]
  | call _ _ ih => exact areExpressions_iff.2 ih

/-! ## Settled trees -/

/-- Unless it is an `IF` with an `ELSE` that an open branch would take. -/
def Node.keepsElse : Node → Bool
  | .choice _ t _ _ => !t.isOpen
  | _ => true

/-- Every `ELSE` of the tree stays with its `IF`. -/
def Node.IsSettled (x : Node) : Prop := ∀ y ∈ x.walk, y.keepsElse = true

theorem Node.isSettled_iff {x : Node} :
    x.IsSettled ↔ x.keepsElse = true ∧ ∀ z ∈ x.children, z.IsSettled := by
  constructor
  · intro h
    exact ⟨h x (mem_walk.2 (.inl rfl)), fun z hz y hy => h y (mem_walk.2 (.inr ⟨z, hz, hy⟩))⟩
  · rintro ⟨hx, hchildren⟩ y hy
    rcases mem_walk.1 hy with rfl | ⟨z, hz, hy⟩
    · exact hx
    · exact hchildren z hz y hy

mutual

theorem Node.isSettled_of_isExpression : ∀ {x : Node}, x.isExpression = true → x.IsSettled
  | .literal .., _ | .reference .., _ => Node.isSettled_iff.2 ⟨rfl, by simp [Node.children]⟩
  | .unary _ x _, h => by
    have hx : x.IsSettled := Node.isSettled_of_isExpression h
    exact Node.isSettled_iff.2 ⟨rfl, by simpa [Node.children] using hx⟩
  | .binary _ l r _, h => by
    simp only [Node.isExpression, Bool.and_eq_true] at h
    have hl : l.IsSettled := Node.isSettled_of_isExpression h.1
    have hr : r.IsSettled := Node.isSettled_of_isExpression h.2
    exact Node.isSettled_iff.2 ⟨rfl, by simpa [Node.children] using ⟨hl, hr⟩⟩
  | .call _ _ _, h => Node.isSettled_iff.2 ⟨rfl, isSettled_of_areExpressions h⟩

theorem isSettled_of_areExpressions : ∀ {xs : List Node}, areExpressions xs = true →
    ∀ x ∈ xs, x.IsSettled
  | [], _ => by simp
  | x :: xs, h => by
    simp only [areExpressions, Bool.and_eq_true] at h
    exact List.forall_mem_cons.2
      ⟨Node.isSettled_of_isExpression h.1, isSettled_of_areExpressions h.2⟩

end

/-! ## Trees but for places -/

/-- Two trees are the same but for places. -/
def Node.Alike (x y : Node) : Prop := x.bare = y.bare

/-- Trees that are the same, one by one, but for places. -/
def NodesAlike (xs ys : List Node) : Prop := bareAll xs = bareAll ys

theorem NodesAlike.cons {x y : Node} {xs ys : List Node} (h : x.Alike y)
    (hs : NodesAlike xs ys) : NodesAlike (x :: xs) (y :: ys) :=
  congrArg₂ List.cons h hs

namespace Node.Alike

variable {x x' c c' l l' r r' t t' e e' : Node} {xs ys : List Node} {p q : Option ℕ} {n : String}

theorem unary {op : UnaryOperator} (h : x.Alike x') :
    (Node.unary op x p).Alike (.unary op x' q) :=
  congrArg (Node.unary op · none) h

theorem binary {op : BinaryOperator} (hl : l.Alike l') (hr : r.Alike r') :
    (Node.binary op l r p).Alike (.binary op l' r' q) :=
  congrArg₂ (Node.binary op · · none) hl hr

theorem call (h : NodesAlike xs ys) : (Node.call n xs p).Alike (.call n ys q) :=
  congrArg (Node.call n · none) h

theorem when (hc : c.Alike c') (ht : t.Alike t') : (Node.when c t p).Alike (.when c' t' q) :=
  congrArg₂ (Node.when · · none) hc ht

theorem choice (hc : c.Alike c') (ht : t.Alike t') (he : e.Alike e') :
    (Node.choice c t e p).Alike (.choice c' t' e' q) := by
  show Node.choice _ _ _ none = Node.choice _ _ _ none
  rw [hc, ht, he]

theorem loop (hc : c.Alike c') (hx : x.Alike x') : (Node.loop c x p).Alike (.loop c' x' q) :=
  congrArg₂ (Node.loop · · none) hc hx

theorem sequence (h : NodesAlike xs ys) : (Node.sequence xs p).Alike (.sequence ys q) :=
  congrArg (Node.sequence · none) h

theorem assignment (h : x.Alike x') : (Node.assignment n x p).Alike (.assignment n x' q) :=
  congrArg (Node.assignment n · none) h

theorem log (h : x.Alike x') : (Node.log x p).Alike (.log x' q) :=
  congrArg (Node.log · none) h

end Node.Alike

theorem asScript_alike {xs ys : List Node} (h : NodesAlike xs ys) :
    (asScript xs).Alike (asScript ys) := by
  rcases xs with _ | ⟨x, _ | ⟨x', xs⟩⟩ <;> rcases ys with _ | ⟨y, _ | ⟨y', ys⟩⟩
  case nil.nil => rfl
  case cons.nil.cons.nil => exact (List.cons.inj h).1
  case cons.cons.cons.cons => exact .sequence h
  all_goals simp [NodesAlike, bareAll] at h

theorem Node.isOpen_bare (x : Node) : x.bare.isOpen = x.isOpen := by
  induction x using isOpen.induct with
  | case1 => rfl
  | case2 _ _ _ _ ih => exact ih
  | case3 _ _ _ ih => exact ih
  | case4 x hwhen hchoice hloop =>
    cases x with
    | when => rfl
    | choice c t e p => exact absurd rfl (hchoice c t e p)
    | loop c b p => exact absurd rfl (hloop c b p)
    | _ => rfl

/-- Trees that differ in offsets only are open together. -/
theorem Node.isOpen_eq_of_bare {x y : Node} (h : x.bare = y.bare) : x.isOpen = y.isOpen := by
  rw [← isOpen_bare x, h, isOpen_bare y]

end Rulebook

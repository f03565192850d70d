/-
  Throughout — relations and properties that pass from the steps of an evaluation to
  the whole.

  * `Compositional R`: values are related to themselves, and steps that are put together
    of related steps are related.
  * `Node.StepsRelated env env' R x`: what the node `x` does itself, apart from its
    parts, is related in two environments.
  * `Node.levelsIn`: how many levels the evaluation of a tree descends.
  * `Compositional.evaluateIn`: where the nodes of a tree do related steps in two
    environments, and there is room for its levels, its evaluations are related.
  * `Composed P`: operators, assignments and reports have the property `P`, and steps
    that are put together of steps that have it have it too; so has the evaluation of a
    tree (`Composed.evaluateIn`), if the reading of each variable and the calls of each
    function that it refers to have it.
  * `Inherited env P`, `Inherited.evaluate`: where every call and every error has the
    property too, no room is needed.
-/
import Rulebook.Proofs.Expressions
import Rulebook.Evaluation

namespace Rulebook

open Eval

variable {ω : Type}

/-! ## The names that are read and called -/

theorem Node.mem_referencedVariables {x : Node} {name : String} :
    name ∈ x.referencedVariables ↔ ∃ p, .reference name p ∈ x.walk := by
  rw [referencedVariables, List.mem_filterMap]
  constructor
  · rintro ⟨y, hy, hname⟩
    cases y <;> cases hname
    exact ⟨_, hy⟩
  · rintro ⟨p, hp⟩
    exact ⟨_, hp, rfl⟩

theorem Node.mem_referencedFunctions {x : Node} {name : String} :
    name ∈ x.referencedFunctions ↔ ∃ xs p, .call name xs p ∈ x.walk := by
  rw [referencedFunctions, List.mem_filterMap]
  constructor
  · rintro ⟨y, hy, hname⟩
    cases y <;> cases hname
    exact ⟨_, _, hy⟩
  · rintro ⟨xs, p, hp⟩
    exact ⟨_, hp, rfl⟩

/-! ## Relations of steps -/

/-- A relation of steps that values have to themselves, and that passes on to what is put
    together of steps. -/
structure Compositional (R : ∀ α : Type, Eval ω α → Eval ω α → Prop) : Prop where
  value {α : Type} (v : α) : R α (pure v) (pure v)
  bind {α β : Type} {a a' : Eval ω α} {f f' : α → Eval ω β} :
    R α a a' → (∀ v, R β (f v) (f' v)) → R β (a >>= f) (a' >>= f')
  located {α : Type} {a a' : Eval ω α} (p : Option ℕ) :
    R α a a' → R α (located p a) (located p a')

/-- What a node does itself is related in two environments: what it does with the values
    of its parts, and what a loop makes of its condition and its body. -/
def Node.StepsRelated (env env' : Environment ω) (R : ∀ α : Type, Eval ω α → Eval ω α → Prop) :
    Node → Prop
  | .reference name _ => R Value (variableValue name) (variableValue name)
  | .unary op _ _ => ∀ v, R Value (ofAnswer (op.apply v)) (ofAnswer (op.apply v))
  | .binary op _ _ _ => ∀ a b,
    R Value (do report (op.reports a b); ofAnswer (op.apply a b))
      (do report (op.reports a b); ofAnswer (op.apply a b))
  | .call name _ _ => ∀ args,
    R Value (Eval.call env.functions name args) (Eval.call env'.functions name args)
  | .loop _ _ p => ∀ c c' b b', R Value c c' → R Value b b' →
    R Value (iterate env.limits p c b env.limits.maxIterations .null)
      (iterate env'.limits p c' b' env'.limits.maxIterations .null)
  | .assignment name _ _ => ∀ v, R Value (assign name v) (assign name v)
  | .log _ _ => ∀ v, R Value (logValue v) (logValue v)
  | _ => True

section
variable {R : ∀ α : Type, Eval ω α → Eval ω α → Prop} (h : Compositional R)
include h

theorem Compositional.branch {c c' t t' e e' : Eval ω Value} (hc : R Value c c')
    (ht : R Value t t') (he : R Value e e') :
    R Value (do if (← c).truthy then t else e) (do if (← c').truthy then t' else e') := by
  refine h.bind hc fun v => ?_
  cases v.truthy with
  | true => exact ht
  | false => exact he

theorem Compositional.operate {op : BinaryOperator} {a a' : Eval ω Value} (ha : R Value a a')
    (hop : ∀ v w, R Value (do report (op.reports v w); ofAnswer (op.apply v w))
      (do report (op.reports v w); ofAnswer (op.apply v w))) (v : Value) :
    R Value (operate op v a) (operate op v a') := by
  unfold Eval.operate
  split
  · split_ifs
    exacts [h.bind ha fun _ => h.value _, h.value _]
  · split_ifs
    exacts [h.value _, h.bind ha fun _ => h.value _]
  · exact h.bind ha fun w => hop v w

/-- Every pass of a loop is related to one of the other loop, where both stop at the same
    ceiling. -/
theorem Compositional.iterate {limits limits' : Limits} (p : Option ℕ)
    {c c' b b' : Eval ω Value} (hc : R Value c c') (hb : R Value b b')
    (hstop : R Unit (report [.loopStopped p limits.maxIterations])
      (report [.loopStopped p limits'.maxIterations])) :
    ∀ (n : ℕ) (last : Value),
      R Value (iterate limits p c b n last) (iterate limits' p c' b' n last) := by
  intro n
  induction n with
  | zero =>
    intro last
    unfold Eval.iterate
    refine h.bind hc fun v => ?_
    split_ifs
    · exact h.bind hstop fun _ => h.value last
    · exact h.value last
  | succ n ih =>
    intro last
    unfold Eval.iterate
    exact h.branch hc (h.bind hb ih) (h.value last)

end

/-! ## Levels -/

mutual

/-- How many levels the evaluation of a tree descends. The operators of a chain stand
    on one level. -/
def Node.levelsIn (onChain : Bool) : Node → ℕ
  | .literal .. | .reference .. => 1
  | .unary _ x _ => x.levelsIn false + 1
  | .binary _ l r _ => max (l.levelsIn true) (r.levelsIn false) + if onChain then 0 else 1
  | .call _ xs _ => levelsOfAll xs + 1
  | .when c t _ => max (c.levelsIn false) (t.levelsIn false) + 1
  | .choice c t e _ => max (c.levelsIn false) (max (t.levelsIn false) (e.levelsIn false)) + 1
  | .loop c b _ => max (c.levelsIn false) (b.levelsIn false) + 1
  | .sequence xs _ => levelsOfAll xs + 1
  | .assignment _ x _ => x.levelsIn false + 1
  | .log x _ => x.levelsIn false + 1
termination_by structural x => x

/-- How many levels the evaluations of several trees descend. -/
def levelsOfAll : List Node → ℕ
  | [] => 0
  | x :: xs => max (x.levelsIn false) (levelsOfAll xs)
termination_by structural xs => xs

end

/-- There is room for so many levels, or the errors for want of room are related, too. -/
def Fits (env env' : Environment ω) (R : ∀ α : Type, Eval ω α → Eval ω α → Prop)
    (levels room : ℕ) : Prop :=
  levels ≤ room ∨ ∀ α : Type, R α (throw (.ofCause (.descentTooDeep env.limits.maxDepth)))
    (throw (.ofCause (.descentTooDeep env'.limits.maxDepth)))

section
variable {env env' : Environment ω} {R : ∀ α : Type, Eval ω α → Eval ω α → Prop}

theorem Fits.mono {levels levels' room : ℕ} (h : Fits env env' R levels room)
    (hle : levels' ≤ levels) : Fits env env' R levels' room :=
  h.imp_left (Nat.le_trans hle)

theorem Fits.max {levels levels' room : ℕ} (h : Fits env env' R (max levels levels') room) :
    Fits env env' R levels room ∧ Fits env env' R levels' room :=
  ⟨h.mono (Nat.le_max_left _ _), h.mono (Nat.le_max_right _ _)⟩

/-- A visit takes a level. -/
theorem Compositional.visit (h : Compositional R) (p : Option ℕ) {levels room : ℕ}
    (hroom : Fits env env' R (levels + 1) room) {α : Type} {step step' : ℕ → Eval ω α}
    (hstep : ∀ room, Fits env env' R levels room → R α (step room) (step' room)) :
    R α (visit env.limits p room step) (visit env'.limits p room step') := by
  cases room with
  | zero =>
    rcases hroom with hroom | hdeep
    · cases hroom
    · exact h.located p (hdeep α)
  | succ room => exact h.located p (hstep room (hroom.imp_left Nat.le_of_succ_le_succ))

/-! ## Trees -/

/-- All nodes of a tree do related steps. -/
abbrev Node.Related (env env' : Environment ω) (R : ∀ α : Type, Eval ω α → Eval ω α → Prop)
    (x : Node) : Prop := ∀ y ∈ x.walk, y.StepsRelated env env' R

theorem Node.Related.own {x : Node} (h : x.Related env env' R) : x.StepsRelated env env' R :=
  h x (mem_walk.2 (.inl rfl))

/-- The nodes of a part are nodes of the tree. -/
theorem Node.Related.child {x : Node} (h : x.Related env env' R) {y : Node}
    (hy : y ∈ x.children) : y.Related env env' R :=
  fun z hz => h z (mem_walk.2 (.inr ⟨y, hy, hz⟩))

mutual

/-- **What relates the steps of the nodes, relates the evaluations of the tree.** -/
theorem Compositional.evaluateIn (h : Compositional R) : ∀ {x : Node}, x.Related env env' R →
    ∀ {onChain : Bool} {room : ℕ}, Fits env env' R (x.levelsIn onChain) room →
      R Value (x.evaluateIn env onChain room) (x.evaluateIn env' onChain room)
  | .literal v p, _, _, _, hroom => h.visit p hroom fun _ _ => h.value v
  | .reference name p, hx, _, _, hroom => h.visit p hroom fun _ _ => hx.own
  | .unary op y p, hx, _, _, hroom => h.visit p hroom fun room hroom => by
    have hy : y.Related env env' R := hx.child (by simp [Node.children])
    exact h.bind (h.evaluateIn hy hroom) hx.own
  | .binary op l r p, hx, onChain, room, hroom => by
    have hl : l.Related env env' R := hx.child (by simp [Node.children])
    have hr : r.Related env env' R := hx.child (by simp [Node.children])
    have hstep : ∀ room, Fits env env' R (max (l.levelsIn true) (r.levelsIn false)) room →
        R Value
          (do
            let a ← l.evaluateIn env true room
            Eval.located p (Eval.operate op a (r.evaluateIn env false room)))
          (do
            let a ← l.evaluateIn env' true room
            Eval.located p (Eval.operate op a (r.evaluateIn env' false room))) :=
      fun room hroom => h.bind (h.evaluateIn hl hroom.max.1) fun a =>
        h.located p (h.operate (h.evaluateIn hr hroom.max.2) hx.own a)
    cases onChain with
    | false => exact h.visit p hroom hstep
    | true => exact hstep room hroom
  | .call name xs p, hx, _, _, hroom => h.visit p hroom fun room hroom => by
    have hxs : ∀ x ∈ xs, x.Related env env' R := fun y hy => hx.child hy
    exact h.bind (h.evaluateAll hxs hroom) hx.own
  | .when c t p, hx, _, _, hroom => h.visit p hroom fun room hroom => by
    have hc : c.Related env env' R := hx.child (by simp [Node.children])
    have ht : t.Related env env' R := hx.child (by simp [Node.children])
    exact h.branch (h.evaluateIn hc hroom.max.1) (h.evaluateIn ht hroom.max.2) (h.value _)
  | .choice c t e p, hx, _, _, hroom => h.visit p hroom fun room hroom => by
    have hc : c.Related env env' R := hx.child (by simp [Node.children])
    have ht : t.Related env env' R := hx.child (by simp [Node.children])
    have he : e.Related env env' R := hx.child (by simp [Node.children])
    exact h.branch (h.evaluateIn hc hroom.max.1) (h.evaluateIn ht hroom.max.2.max.1)
      (h.evaluateIn he hroom.max.2.max.2)
  | .loop c b p, hx, _, _, hroom => h.visit p hroom fun room hroom => by
    have hc : c.Related env env' R := hx.child (by simp [Node.children])
    have hb : b.Related env env' R := hx.child (by simp [Node.children])
    exact hx.own _ _ _ _ (h.evaluateIn hc hroom.max.1) (h.evaluateIn hb hroom.max.2)
  | .sequence xs p, hx, _, _, hroom => h.visit p hroom fun room hroom => by
    have hxs : ∀ x ∈ xs, x.Related env env' R := fun y hy => hx.child hy
    exact h.bind (h.evaluateAll hxs hroom) fun _ => h.value _
  | .assignment name y p, hx, _, _, hroom => h.visit p hroom fun room hroom => by
    have hy : y.Related env env' R := hx.child (by simp [Node.children])
    exact h.bind (h.evaluateIn hy hroom) hx.own
  | .log y p, hx, _, _, hroom => h.visit p hroom fun room hroom => by
    have hy : y.Related env env' R := hx.child (by simp [Node.children])
    exact h.bind (h.evaluateIn hy hroom) hx.own
termination_by structural x => x

theorem Compositional.evaluateAll (h : Compositional R) : ∀ {xs : List Node},
    (∀ x ∈ xs, x.Related env env' R) → ∀ {room : ℕ}, Fits env env' R (levelsOfAll xs) room →
      R (List Value) (evaluateAll env room xs) (evaluateAll env' room xs)
  | [], _, _, _ => h.value []
  | x :: xs, hxs, room, hroom => by
    have hx : x.Related env env' R := hxs x (by simp)
    have hrest : ∀ x ∈ xs, x.Related env env' R := fun y hy => hxs y (by simp [hy])
    exact h.bind (h.evaluateIn hx hroom.max.1) fun _ =>
      h.bind (h.evaluateAll hrest hroom.max.2) fun _ => h.value _
termination_by structural xs => xs

end

end

/-! ## Properties of steps -/

/-- A property of steps as a relation to themselves. -/
abbrev Having (P : ∀ α : Type, Eval ω α → Prop) : ∀ α : Type, Eval ω α → Eval ω α → Prop :=
  fun α step _ => P α step

/-- A property of steps that those without parts have, save errors, calls and the
    reading of a variable, and that passes on to what is put together of steps. -/
structure Composed (P : ∀ α : Type, Eval ω α → Prop) : Prop
    extends Compositional (Having P) where
  report (notices : Journal) : P Unit (report notices)
  assign (name : String) (v : Value) : P Value (assign name v)
  unary (op : UnaryOperator) (v : Value) : P Value (ofAnswer (op.apply v))
  binary (op : BinaryOperator) (a b : Value) : P Value (ofAnswer (op.apply a b))

section
variable {env : Environment ω} {P : ∀ α : Type, Eval ω α → Prop} {x : Node}

/-- Every node does steps that have the property, if the reading of its variable or the
    calls of its function have it. -/
theorem Composed.stepsRelated (h : Composed P)
    (hname : ∀ name p, x = .reference name p → P Value (variableValue name))
    (hcall : ∀ name xs p, x = .call name xs p →
      ∀ args, P Value (call env.functions name args)) :
    x.StepsRelated env env (Having P) := by
  cases x with
  | reference name p => exact hname name p rfl
  | unary op y p => exact h.unary op
  | binary op l r p => exact fun a b => h.bind (h.report _) fun _ => h.binary op a b
  | call name xs p => exact hcall name xs p rfl
  | loop c b p => exact fun _ _ _ _ hc hb => h.iterate p hc hb (h.report _) _ _
  | assignment name y p => exact h.assign name
  | log y p => exact fun v => h.bind (h.report _) fun _ => h.value v
  | _ => exact trivial

theorem Composed.evaluateIn (h : Composed P)
    (hnames : ∀ name ∈ x.referencedVariables, P Value (variableValue name))
    (hcalls : ∀ name ∈ x.referencedFunctions, ∀ args, P Value (call env.functions name args))
    {onChain : Bool} {room : ℕ} (hroom : Fits env env (Having P) (x.levelsIn onChain) room) :
    P Value (x.evaluateIn env onChain room) := by
  have hrelated : x.Related env env (Having P) := fun y hy =>
    h.stepsRelated
      (fun name p hname => hnames name (Node.mem_referencedVariables.2 ⟨p, hname ▸ hy⟩))
      (fun name xs p hcall => hcalls name (Node.mem_referencedFunctions.2 ⟨xs, p, hcall ▸ hy⟩))
  exact h.toCompositional.evaluateIn hrelated hroom

end

/-! ## Errors -/

/-- A property of steps that the smallest ones have, save the reading of a variable,
    and that passes on to what is put together of steps. -/
structure Inherited (env : Environment ω) (P : ∀ α : Type, Eval ω α → Prop) : Prop
    extends Composed P where
  call (name : String) (args : List Value) : P Value (call env.functions name args)
  failure {α : Type} (cause : Cause) : P α (throw (.ofCause cause))

/-- **What every step has, the whole evaluation has.** -/
theorem Inherited.evaluate {env : Environment ω} {P : ∀ α : Type, Eval ω α → Prop}
    (h : Inherited env P) {x : Node}
    (hnames : ∀ name ∈ x.referencedVariables, P Value (variableValue name)) :
    P Value (x.evaluate env) :=
  h.toComposed.evaluateIn hnames (fun name _ => h.call name) (.inr fun _ => h.failure _)

end Rulebook

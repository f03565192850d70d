/-
  Nested evaluation — what a tree means when every operand is visited, and what
  folding the chains of operators changes of it.

  * `Node.evaluateNested` evaluates a tree with each operand one level below its
    operator, within some room or without a limit.
  * `Within a b`: the step `a` does what `b` does, unless it is too deep.
  * `Node.evaluateIn_spine`: the operators of a chain are applied one after the
    other, along the left spine.
  * `Node.evaluateIn_within` and `Node.evaluateNested_within` put evaluation
    between nested evaluation with the same room and without a limit;
    `Node.evaluate_agrees` draws the conclusion.
-/
import Rulebook.Proofs.Expressions
import Rulebook.Proofs.Steps

namespace Rulebook

open Eval

/-! ## Nested evaluation -/

section
variable {ω α : Type}

/-- Visits a node as `visit` does; where there is no limit, there is always room. -/
def visitNested (limits : Limits) (p : Option ℕ) (room : Option ℕ)
    (step : Option ℕ → Eval ω α) : Eval ω α :=
  located p <|
    match room with
    | none => step none
    | some 0 => throw (.ofCause (.descentTooDeep limits.maxDepth))
    | some (n + 1) => step (some n)

mutual

/-- Evaluates a node by evaluating its parts, each one level below it. -/
def Node.evaluateNested (env : Environment ω) (room : Option ℕ) : Node → Eval ω Value
  | .literal v p => visitNested env.limits p room fun _ => pure v
  | .reference name p => visitNested env.limits p room fun _ => variableValue name
  | .unary op x p => visitNested env.limits p room fun room => do
    ofAnswer (op.apply (← x.evaluateNested env room))
  | .binary op l r p => visitNested env.limits p room fun room => do
    let a ← l.evaluateNested env room
    operate op a (r.evaluateNested env room)
  | .call name xs p => visitNested env.limits p room fun room => do
    call env.functions name (← evaluateAllNested env room xs)
  | .when c t p => visitNested env.limits p room fun room => do
    if (← c.evaluateNested env room).truthy then t.evaluateNested env room
    else return .null
  | .choice c t e p => visitNested env.limits p room fun room => do
    if (← c.evaluateNested env room).truthy then t.evaluateNested env room
    else e.evaluateNested env room
  | .loop c b p => visitNested env.limits p room fun room =>
    iterate env.limits p (c.evaluateNested env room) (b.evaluateNested env room)
      env.limits.maxIterations .null
  | .sequence xs p => visitNested env.limits p room fun room => do
    return (← evaluateAllNested env room xs).getLastD .null
  | .assignment name x p => visitNested env.limits p room fun room => do
    assign name (← x.evaluateNested env room)
  | .log x p => visitNested env.limits p room fun room => do
    logValue (← x.evaluateNested env room)
termination_by structural x => x

/-- Evaluates nodes one after the other, by their parts. -/
def evaluateAllNested (env : Environment ω) (room : Option ℕ) : List Node → Eval ω (List Value)
  | [] => return []
  | x :: xs => do
    let v ← x.evaluateNested env room
    return v :: (← evaluateAllNested env room xs)
termination_by structural xs => xs

end

end

/-- An environment with another limit of depth. -/
def Environment.withDepth {ω : Type} (env : Environment ω) (depth : ℕ) : Environment ω :=
  { env with limits := { env.limits with maxDepth := depth } }

/-- Every node of a tree has a position. -/
def Node.IsPlaced (x : Node) : Prop := ∀ y ∈ x.walk, y.position ≠ none

/-! ## Chains as loops -/

/-- The operand at the left end of a chain. -/
def Node.firstOperand : Node → Node
  | .binary _ l _ _ => l.firstOperand
  | x => x
termination_by structural x => x

/-- The operators of a chain from left to right, each with its right operand and
    its position. -/
def Node.spine : Node → List (BinaryOperator × Node × Option ℕ)
  | .binary op l r p => l.spine ++ [(op, r, p)]
  | _ => []
termination_by structural x => x

/-- Applies an operator of a chain to what has come of those before it. -/
def chainStep {ω : Type} (env : Environment ω) (room : ℕ) (a : Value)
    (step : BinaryOperator × Node × Option ℕ) : Eval ω Value :=
  located step.2.2 (operate step.1 a (step.2.1.evaluateIn env false room))

/-- **A chain is a loop along its left spine.** On the level of a chain its first
    operand is evaluated, and then its operators are applied one after the other. -/
theorem Node.evaluateIn_spine {ω : Type} (env : Environment ω) (room : ℕ) (x : Node) :
    x.evaluateIn env true room =
      x.firstOperand.evaluateIn env false room >>= x.spine.foldlM (chainStep env room) := by
  induction x using Node.spine.induct with
  | case1 op l r p ih =>
    simp only [Node.spine, Node.firstOperand, List.foldlM_append, List.foldlM_cons,
      List.foldlM_nil, bind_pure]
    rw [← bind_assoc, ← ih]
    rfl
  | case2 x hx =>
    cases x with
    | binary op l r p => exact absurd rfl (hx op l r p)
    | _ => exact (bind_pure _).symm

/-- A chain is visited once, for all its operators. -/
theorem Node.evaluateIn_binary {ω : Type} (env : Environment ω) (op : BinaryOperator)
    (l r : Node) (p : Option ℕ) (room : ℕ) :
    (Node.binary op l r p).evaluateIn env false room = visit env.limits p room fun room =>
      (Node.binary op l r p).firstOperand.evaluateIn env false room >>=
        (Node.binary op l r p).spine.foldlM (chainStep env room) := by
  simp only [← evaluateIn_spine]
  rfl

/-! ## Placed errors -/

section
variable {ω α β : Type}

/-- A failure that takes no position any more. -/
def Failure.IsPlaced (f : Failure) : Prop := ∀ p, f.locatedAt p = f

theorem Failure.isPlaced_locatedAt (p : ℕ) (f : Failure) : (f.locatedAt (some p)).IsPlaced := by
  intro q
  cases f with
  | breakdown b => rfl
  | error e =>
    simp only [Failure.locatedAt, ExpressionError.locatedAt]
    split_ifs <;> simp_all

theorem Failure.locatedAt_locatedAt (p : Option ℕ) (f : Failure) :
    (f.locatedAt p).locatedAt p = f.locatedAt p := by
  cases f with
  | breakdown b => rfl
  | error e =>
    simp only [Failure.locatedAt, ExpressionError.locatedAt]
    split_ifs <;> simp_all

/-- A step whose failures take no position any more. -/
def FailsPlaced (step : Eval ω α) : Prop := ∀ s f, (step.run s).1 = .error f → f.IsPlaced

theorem failsPlaced_located (p : ℕ) (step : Eval ω α) : FailsPlaced (located (some p) step) := by
  intro s f hf
  rw [run_located] at hf
  rcases hrun : step.run s with ⟨f' | v, t⟩
  · rw [hrun] at hf
    cases hf
    exact f'.isPlaced_locatedAt p
  · rw [hrun] at hf
    cases hf

/-- A first step whose failures are placed may be left out of what is located. -/
theorem located_bind {step : Eval ω α} {next : α → Eval ω β} (h : FailsPlaced step)
    (p : Option ℕ) :
    located p (step >>= next) = step >>= fun v => located p (next v) := by
  funext s
  show (located p (step >>= next)).run s = (step >>= fun v => located p (next v)).run s
  have hs := h s
  rw [run_located, run_bind, run_bind]
  rcases hrun : step.run s with ⟨f | v, t⟩
  · have hf : f.locatedAt p = f := hs f (by rw [hrun]) p
    simp only [Except.mapError, hf]
  · rfl

theorem located_located (p : Option ℕ) (step : Eval ω α) :
    located p (located p step) = located p step := by
  funext s
  show (located p (located p step)).run s = (located p step).run s
  rw [run_located, run_located]
  rcases step.run s with ⟨f | v, t⟩
  · simp only [Except.mapError, Failure.locatedAt_locatedAt]
  · rfl

/-! ## Within the room -/

/-- An answer that is an error for want of room. -/
def TooDeep (answer : Except Failure α) : Prop :=
  ∃ e, answer = .error (.error e) ∧ e.cause.kind = .nestingTooDeep

/-- The step `a` does what `b` does, unless it is too deep. -/
def Within (a b : Eval ω α) : Prop := ∀ s, TooDeep (a.run s).1 ∨ a.run s = b.run s

theorem Within.refl (a : Eval ω α) : Within a a := fun _ => .inr rfl

theorem Within.bind {a b : Eval ω α} {f g : α → Eval ω β} (h : Within a b)
    (hfg : ∀ v, Within (f v) (g v)) : Within (a >>= f) (b >>= g) := by
  intro s
  rw [run_bind, run_bind]
  rcases h s with ⟨e, he, hk⟩ | heq
  · left
    rcases ha : a.run s with ⟨f' | v, t⟩
    · rw [ha] at he
      exact ⟨e, congrArg Except.error (Except.error.inj he), hk⟩
    · rw [ha] at he
      cases he
  · rw [heq]
    rcases b.run s with ⟨f' | v, t⟩
    · exact .inr rfl
    · exact hfg v t

theorem Within.located {a b : Eval ω α} (h : Within a b) (p : Option ℕ) :
    Within (located p a) (located p b) := by
  intro s
  rw [run_located, run_located]
  rcases h s with ⟨e, he, hk⟩ | heq
  · refine .inl ⟨e.locatedAt p, by rw [he]; rfl, ?_⟩
    rw [ExpressionError.locatedAt]
    split_ifs
    exacts [hk, hk]
  · exact .inr (by rw [heq])

theorem tooDeep_within (limits : Limits) (p : Option ℕ) (b : Eval ω α) :
    Within (located p (throw (.ofCause (.descentTooDeep limits.maxDepth)))) b := by
  intro s
  refine .inl ⟨(ExpressionError.ofCause (.descentTooDeep limits.maxDepth)).locatedAt p, rfl, ?_⟩
  rw [ExpressionError.locatedAt]
  split_ifs <;> rfl

theorem Within.operate {a b : Eval ω Value} (h : Within a b) (op : BinaryOperator) (v : Value) :
    Within (operate op v a) (operate op v b) := by
  unfold Eval.operate
  split
  · split_ifs
    exacts [h.bind fun _ => .refl _, .refl _]
  · split_ifs
    exacts [.refl _, h.bind fun _ => .refl _]
  · exact h.bind fun _ => .refl _

theorem Within.branch {c c' t t' e e' : Eval ω Value} (hc : Within c c') (ht : Within t t')
    (he : Within e e') :
    Within (do if (← c).truthy then t else e) (do if (← c').truthy then t' else e') := by
  refine hc.bind fun v => ?_
  cases v.truthy with
  | true => exact ht
  | false => exact he

theorem Within.iterate {limits limits' : Limits} {c c' b b' : Eval ω Value}
    (hmax : limits.maxIterations = limits'.maxIterations) (hc : Within c c') (hb : Within b b')
    (p : Option ℕ) : ∀ (n : ℕ) (last : Value),
      Within (iterate limits p c b n last) (iterate limits' p c' b' n last) := by
  intro n
  induction n with
  | zero =>
    intro last
    unfold Eval.iterate
    rw [hmax]
    exact hc.bind fun _ => .refl _
  | succ n ih =>
    intro last
    unfold Eval.iterate
    exact hc.branch (hb.bind ih) (.refl _)

/-- A visit comes within one that is not limited. -/
theorem visit_within {limits limits' : Limits} (p : Option ℕ) (room : ℕ)
    {step : ℕ → Eval ω α} {step' : Option ℕ → Eval ω α}
    (h : ∀ room, Within (step room) (step' none)) :
    Within (visit limits p room step) (visitNested limits' p none step') := by
  cases room with
  | zero => exact tooDeep_within limits p _
  | succ room => exact (h room).located p

theorem visit_within_located {limits limits' : Limits} (p : Option ℕ) (room : ℕ)
    {step : ℕ → Eval ω α} {step' : Option ℕ → Eval ω α}
    (h : ∀ room, Within (step room) (located p (step' none))) :
    Within (visit limits p room step) (visitNested limits' p none step') := by
  have hlocated : visitNested limits' p none step' =
      visitNested limits' p none fun room => located p (step' room) :=
    (located_located p (step' none)).symm
  rw [hlocated]
  exact visit_within p room h

/-- A nested visit with some room comes within a step with no less. -/
theorem visitNested_within {limits : Limits} (p : Option ℕ) {m room : ℕ} (hm : m ≤ room)
    {step : Eval ω α} {step' : Option ℕ → Eval ω α}
    (h : ∀ m, m + 1 ≤ room → Within (located p (step' (some m))) step) :
    Within (visitNested limits p (some m) step') step := by
  cases m with
  | zero => exact tooDeep_within limits p _
  | succ m => exact h m hm

/-- A nested visit with some room comes within a visit with no less. -/
theorem visitNested_within_visit {limits : Limits} (p : Option ℕ) {m room : ℕ} (hm : m ≤ room)
    {step : ℕ → Eval ω α} {step' : Option ℕ → Eval ω α}
    (h : ∀ m room, m ≤ room → Within (step' (some m)) (step room)) :
    Within (visitNested limits p (some m) step') (visit limits p room step) := by
  refine visitNested_within p hm fun m hm => ?_
  obtain ⟨room, rfl⟩ : ∃ r, room = r + 1 := ⟨room - 1, by omega⟩
  exact (h m room (Nat.le_of_succ_le_succ hm)).located p

theorem visitNested_within_located {limits : Limits} (p : Option ℕ) {m room : ℕ}
    (hm : m ≤ room) {step : ℕ → Eval ω α} {step' : Option ℕ → Eval ω α}
    (h : ∀ m room, m ≤ room → Within (located p (step' (some m))) (step room)) :
    Within (visitNested limits p (some m) step') (visit limits p room step) := by
  refine visitNested_within p hm fun m hm => ?_
  obtain ⟨room, rfl⟩ : ∃ r, room = r + 1 := ⟨room - 1, by omega⟩
  have hwithin := (h m room (Nat.le_of_succ_le_succ hm)).located p
  rwa [located_located] at hwithin

end

/-! ## Between the two -/

section
variable {ω : Type} (env : Environment ω)

theorem Node.failsPlaced_evaluateNested {x : Node} (h : x.position ≠ none) (room : Option ℕ) :
    FailsPlaced (x.evaluateNested env room) := by
  obtain ⟨p, hp⟩ := Option.ne_none_iff_exists'.1 h
  cases x <;> cases hp <;> exact failsPlaced_located p _

theorem Node.position_ne_none {x : Node} (h : x.IsPlaced) : x.position ≠ none :=
  h x (mem_walk.2 (.inl rfl))

/-- The parts of a placed tree are placed. -/
theorem Node.IsPlaced.child {x : Node} (h : x.IsPlaced) {y : Node} (hy : y ∈ x.children) :
    y.IsPlaced := fun z hz => h z (mem_walk.2 (.inr ⟨y, hy, hz⟩))

mutual

/-- **Evaluation does what nested evaluation without a limit does, unless it is
    too deep.** -/
theorem Node.evaluateIn_within (depth : ℕ) : ∀ {x : Node}, x.IsPlaced →
    ∀ (onChain : Bool) (room : ℕ),
      Within (x.evaluateIn (env.withDepth depth) onChain room) (x.evaluateNested env none)
  | .literal v p, _, _, room => visit_within p room fun _ => .refl _
  | .reference name p, _, _, room => visit_within p room fun _ => .refl _
  | .unary op x p, h, _, room => visit_within p room fun room => by
    have hx : x.IsPlaced := h.child (by simp [Node.children])
    exact (Node.evaluateIn_within depth hx false room).bind fun _ => .refl _
  | .binary op l r p, h, onChain, room => by
    have hl : l.IsPlaced := h.child (by simp [Node.children])
    have hr : r.IsPlaced := h.child (by simp [Node.children])
    have hstep : ∀ room, Within
        (l.evaluateIn (env.withDepth depth) true room >>= fun a =>
          located p (operate op a (r.evaluateIn (env.withDepth depth) false room)))
        (located p (l.evaluateNested env none >>= fun a =>
          operate op a (r.evaluateNested env none))) := by
      intro room
      rw [located_bind (Node.failsPlaced_evaluateNested env (Node.position_ne_none hl) none)]
      exact (Node.evaluateIn_within depth hl true room).bind fun a =>
        ((Node.evaluateIn_within depth hr false room).operate op a).located p
    cases onChain with
    | true => exact hstep room
    | false => exact visit_within_located p room hstep
  | .call name xs p, h, _, room => visit_within p room fun room => by
    have hxs : ∀ x ∈ xs, x.IsPlaced := fun x hx => h.child hx
    exact (evaluateAll_within depth hxs room).bind fun _ => .refl _
  | .when c t p, h, _, room => visit_within p room fun room => by
    have hc : c.IsPlaced := h.child (by simp [Node.children])
    have ht : t.IsPlaced := h.child (by simp [Node.children])
    exact (Node.evaluateIn_within depth hc false room).branch
      (Node.evaluateIn_within depth ht false room) (.refl _)
  | .choice c t e p, h, _, room => visit_within p room fun room => by
    have hc : c.IsPlaced := h.child (by simp [Node.children])
    have ht : t.IsPlaced := h.child (by simp [Node.children])
    have he : e.IsPlaced := h.child (by simp [Node.children])
    exact (Node.evaluateIn_within depth hc false room).branch
      (Node.evaluateIn_within depth ht false room) (Node.evaluateIn_within depth he false room)
  | .loop c b p, h, _, room => visit_within p room fun room => by
    have hc : c.IsPlaced := h.child (by simp [Node.children])
    have hb : b.IsPlaced := h.child (by simp [Node.children])
    have hmax : (env.withDepth depth).limits.maxIterations = env.limits.maxIterations := rfl
    exact Within.iterate hmax (Node.evaluateIn_within depth hc false room)
      (Node.evaluateIn_within depth hb false room) p _ _
  | .sequence xs p, h, _, room => visit_within p room fun room => by
    have hxs : ∀ x ∈ xs, x.IsPlaced := fun x hx => h.child hx
    exact (evaluateAll_within depth hxs room).bind fun _ => .refl _
  | .assignment name x p, h, _, room => visit_within p room fun room => by
    have hx : x.IsPlaced := h.child (by simp [Node.children])
    exact (Node.evaluateIn_within depth hx false room).bind fun _ => .refl _
  | .log x p, h, _, room => visit_within p room fun room => by
    have hx : x.IsPlaced := h.child (by simp [Node.children])
    exact (Node.evaluateIn_within depth hx false room).bind fun _ => .refl _
termination_by structural x => x

theorem evaluateAll_within (depth : ℕ) : ∀ {xs : List Node},
    (∀ x ∈ xs, x.IsPlaced) → ∀ room : ℕ,
      Within (evaluateAll (env.withDepth depth) room xs) (evaluateAllNested env none xs)
  | [], _, _ => .refl _
  | x :: xs, h, room => by
    have hx : x.IsPlaced := h x (by simp)
    have hxs : ∀ x ∈ xs, x.IsPlaced := fun y hy => h y (by simp [hy])
    exact (Node.evaluateIn_within depth hx false room).bind fun _ =>
      (evaluateAll_within depth hxs room).bind fun _ => .refl _
termination_by structural xs => xs

end

mutual

/-- **Nested evaluation does what evaluation with no less room does, unless it is
    too deep.** -/
theorem Node.evaluateNested_within : ∀ {x : Node}, x.IsPlaced →
    ∀ (onChain : Bool) {m room : ℕ}, m ≤ room →
      Within (x.evaluateNested env (some m)) (x.evaluateIn env onChain room)
  | .literal v p, _, _, _, _, hm => visitNested_within_visit p hm fun _ _ _ => .refl _
  | .reference name p, _, _, _, _, hm => visitNested_within_visit p hm fun _ _ _ => .refl _
  | .unary op x p, h, _, _, _, hm => visitNested_within_visit p hm fun _ _ hm => by
    have hx : x.IsPlaced := h.child (by simp [Node.children])
    exact (Node.evaluateNested_within hx false hm).bind fun _ => .refl _
  | .binary op l r p, h, onChain, m, room, hm => by
    have hl : l.IsPlaced := h.child (by simp [Node.children])
    have hr : r.IsPlaced := h.child (by simp [Node.children])
    have hstep : ∀ m room, m ≤ room → Within
        (located p (l.evaluateNested env (some m) >>= fun a =>
          operate op a (r.evaluateNested env (some m))))
        (l.evaluateIn env true room >>= fun a =>
          located p (operate op a (r.evaluateIn env false room))) := by
      intro m room hm
      rw [located_bind (Node.failsPlaced_evaluateNested env (Node.position_ne_none hl) _)]
      exact (Node.evaluateNested_within hl true hm).bind fun a =>
        ((Node.evaluateNested_within hr false hm).operate op a).located p
    cases onChain with
    | true => exact visitNested_within p hm fun m hm => hstep m room (Nat.le_of_succ_le hm)
    | false => exact visitNested_within_located p hm hstep
  | .call name xs p, h, _, _, _, hm => visitNested_within_visit p hm fun _ _ hm => by
    have hxs : ∀ x ∈ xs, x.IsPlaced := fun x hx => h.child hx
    exact (evaluateAllNested_within hxs hm).bind fun _ => .refl _
  | .when c t p, h, _, _, _, hm => visitNested_within_visit p hm fun _ _ hm => by
    have hc : c.IsPlaced := h.child (by simp [Node.children])
    have ht : t.IsPlaced := h.child (by simp [Node.children])
    exact (Node.evaluateNested_within hc false hm).branch
      (Node.evaluateNested_within ht false hm) (.refl _)
  | .choice c t e p, h, _, _, _, hm => visitNested_within_visit p hm fun _ _ hm => by
    have hc : c.IsPlaced := h.child (by simp [Node.children])
    have ht : t.IsPlaced := h.child (by simp [Node.children])
    have he : e.IsPlaced := h.child (by simp [Node.children])
    exact (Node.evaluateNested_within hc false hm).branch
      (Node.evaluateNested_within ht false hm) (Node.evaluateNested_within he false hm)
  | .loop c b p, h, _, _, _, hm => visitNested_within_visit p hm fun _ _ hm => by
    have hc : c.IsPlaced := h.child (by simp [Node.children])
    have hb : b.IsPlaced := h.child (by simp [Node.children])
    exact Within.iterate rfl (Node.evaluateNested_within hc false hm)
      (Node.evaluateNested_within hb false hm) p _ _
  | .sequence xs p, h, _, _, _, hm => visitNested_within_visit p hm fun _ _ hm => by
    have hxs : ∀ x ∈ xs, x.IsPlaced := fun x hx => h.child hx
    exact (evaluateAllNested_within hxs hm).bind fun _ => .refl _
  | .assignment name x p, h, _, _, _, hm => visitNested_within_visit p hm fun _ _ hm => by
    have hx : x.IsPlaced := h.child (by simp [Node.children])
    exact (Node.evaluateNested_within hx false hm).bind fun _ => .refl _
  | .log x p, h, _, _, _, hm => visitNested_within_visit p hm fun _ _ hm => by
    have hx : x.IsPlaced := h.child (by simp [Node.children])
    exact (Node.evaluateNested_within hx false hm).bind fun _ => .refl _
termination_by structural x => x

theorem evaluateAllNested_within : ∀ {xs : List Node}, (∀ x ∈ xs, x.IsPlaced) →
    ∀ {m room : ℕ}, m ≤ room →
      Within (evaluateAllNested env (some m) xs) (evaluateAll env room xs)
  | [], _, _, _, _ => .refl _
  | x :: xs, h, _, _, hm => by
    have hx : x.IsPlaced := h x (by simp)
    have hxs : ∀ x ∈ xs, x.IsPlaced := fun y hy => h y (by simp [hy])
    exact (Node.evaluateNested_within hx false hm).bind fun _ =>
      (evaluateAllNested_within hxs hm).bind fun _ => .refl _
termination_by structural xs => xs

end

/-- **Folding chains changes no meaning.** With any depth allowed, the evaluation
    of a placed tree is too deep or comes to what nested evaluation without a limit
    comes to, in answer and store; it is too deep only where nested evaluation with
    that depth is; and two depths that are both enough make no difference. Each chain
    in it is visited once, and is a loop along its left spine there. -/
theorem Node.evaluate_agrees {x : Node} (hx : x.IsPlaced) (depth : ℕ) (s : Store ω) :
    (TooDeep ((x.evaluate (env.withDepth depth)).run s).1 ∨
      (x.evaluate (env.withDepth depth)).run s = (x.evaluateNested env none).run s) ∧
    (TooDeep ((x.evaluate (env.withDepth depth)).run s).1 →
      TooDeep ((x.evaluateNested (env.withDepth depth) (some depth)).run s).1) ∧
    (∀ depth', ¬ TooDeep ((x.evaluate (env.withDepth depth)).run s).1 →
      ¬ TooDeep ((x.evaluate (env.withDepth depth')).run s).1 →
        (x.evaluate (env.withDepth depth)).run s = (x.evaluate (env.withDepth depth')).run s) ∧
    ∀ (op : BinaryOperator) (l r : Node) (p : Option ℕ) (room : ℕ),
      (Node.binary op l r p).evaluateIn (env.withDepth depth) false room =
        visit (env.withDepth depth).limits p room fun room =>
          (Node.binary op l r p).firstOperand.evaluateIn (env.withDepth depth) false room >>=
            (Node.binary op l r p).spine.foldlM (chainStep (env.withDepth depth) room) := by
  have hwithin : ∀ depth, TooDeep ((x.evaluate (env.withDepth depth)).run s).1 ∨
      (x.evaluate (env.withDepth depth)).run s = (x.evaluateNested env none).run s :=
    fun depth => Node.evaluateIn_within env depth hx false depth s
  refine ⟨hwithin depth, fun hdeep => ?_, fun depth' h h' => ?_, fun op l r p room => ?_⟩
  · rcases Node.evaluateNested_within (env.withDepth depth) hx false (Nat.le_refl depth) s with
      hnested | heq
    · exact hnested
    · rw [heq]
      exact hdeep
  · rw [(hwithin depth).resolve_left h, (hwithin depth').resolve_left h']
  · exact Node.evaluateIn_binary (env.withDepth depth) op l r p room

end

/-- Three operands, on two levels as a chain and on three when nested. -/
def threeOperands : Node :=
  .binary .or_ (.binary .or_ (.literal (.boolean false) (some 0)) (.literal .null (some 9)) (some 6))
    (.literal (.boolean true) (some 17)) (some 14)

/-- Two levels are enough for a chain, whatever its length. -/
theorem threeOperands_agrees :
    threeOperands.IsPlaced ∧
      TooDeep ((threeOperands.evaluateNested
        ((⟨.standard, []⟩ : Environment Unit).withDepth 2) (some 2)).run ⟨[], [], ()⟩).1 ∧
      (threeOperands.evaluate ((⟨.standard, []⟩ : Environment Unit).withDepth 2)).run ⟨[], [], ()⟩ =
        (threeOperands.evaluateNested (⟨.standard, []⟩ : Environment Unit) none).run ⟨[], [], ()⟩ := by
  have hplaced : threeOperands.IsPlaced := by
    simp [Node.IsPlaced, threeOperands, Node.walk, Node.position]
  have hdone : ¬ TooDeep ((threeOperands.evaluate
      ((⟨.standard, []⟩ : Environment Unit).withDepth 2)).run ⟨[], [], ()⟩).1 := by
    rintro ⟨e, he, -⟩
    cases he
  exact ⟨hplaced, ⟨_, rfl, rfl⟩,
    (Node.evaluate_agrees ⟨.standard, []⟩ hplaced 2 ⟨[], [], ()⟩).1.resolve_left hdone⟩

end Rulebook

/-
  Visits — what the evaluation of a tree comes to, and where a breakdown of it begins.

  * `BreaksDown step s b`: the step breaks down with `b` in the store `s`. For each way to
    put steps together it is said which of them breaks down (`breaksDown_bind` and its
    siblings).
  * `Visit`: a node that is evaluated in a store, with some room; `Visit.Leads`: which visits
    are made for another one, and in which store each of them begins.
  * `Visit.Breaks`: the operator or the call of the visited node breaks down, its operands or
    arguments having their values.
  * `Visit.BreaksDown.breaks_or_leads` takes the breakdown of a visit one step down,
    `Visit.BreaksDown.exists_breaks` down to where it begins.
  * `Node.Escapes env x s b`, `Node.breaksDown_iff`: the evaluation of a tree breaks down with
    what begins at the visits that it makes, and with nothing else.
  * `Node.CanBreak functions x`: a breakdown can begin at the node `x`. A tree without such nodes
    lets none through (`Node.Escapes.exists_canBreak`).
-/
import Mathlib.Logic.Relation
import Rulebook.Proofs.Operators
import Rulebook.Proofs.Ceiling

namespace Rulebook

open Eval

variable {ω α β : Type}

/-! ## Steps that break down -/

/-- The step breaks down in a store. -/
def BreaksDown (step : Eval ω α) (s : Store ω) (b : Breakdown) : Prop :=
  (step.run s).1 = .error (.breakdown b)

section
variable {s : Store ω} {b : Breakdown}

theorem breaksDown_ofAnswer {answer : Except Failure α} :
    BreaksDown (ofAnswer answer : Eval ω α) s b ↔ answer = .error (.breakdown b) := .rfl

theorem not_breaksDown_pure (v : α) : ¬ BreaksDown (pure v : Eval ω α) s b := fun h => by cases h

theorem breaksDown_bind {step : Eval ω α} {next : α → Eval ω β} :
    BreaksDown (step >>= next) s b ↔
      BreaksDown step s b ∨ ∃ v t, step.run s = (.ok v, t) ∧ BreaksDown (next v) t b := by
  unfold BreaksDown
  rw [run_bind]
  rcases hstep : step.run s with ⟨f | v, t⟩
  · constructor
    · intro h
      cases h
      exact .inl rfl
    · rintro (h | ⟨_, _, h, -⟩)
      · cases h
        rfl
      · cases h
  · constructor
    · exact fun h => .inr ⟨v, t, rfl, h⟩
    · rintro (h | ⟨_, _, h, hnext⟩)
      · cases h
      · cases h
        exact hnext

theorem breaksDown_map {step : Eval ω α} {f : α → β} :
    BreaksDown (do return f (← step)) s b ↔ BreaksDown step s b := by
  rw [breaksDown_bind]
  exact or_iff_left fun ⟨_, _, _, h⟩ => not_breaksDown_pure _ h

/-- A breakdown has no position to be placed at. -/
theorem breaksDown_located {step : Eval ω α} {p : Option ℕ} :
    BreaksDown (located p step) s b ↔ BreaksDown step s b := by
  unfold BreaksDown
  rw [run_located]
  rcases (step.run s).1 with (e | c) | v <;> simp [Except.mapError, Failure.locatedAt]

theorem breaksDown_visit {limits : Limits} {p : Option ℕ} {room : ℕ} {step : ℕ → Eval ω α} :
    BreaksDown (visit limits p room step) s b ↔ ∃ n, room = n + 1 ∧ BreaksDown (step n) s b := by
  cases room with
  | zero => exact iff_of_false (fun h => by cases h) (by simp)
  | succ n =>
    have hstep : BreaksDown (visit limits p (n + 1) step) s b ↔ BreaksDown (step n) s b :=
      breaksDown_located
    simpa using hstep

/-- Of two branches, the one that is chosen. -/
theorem breaksDown_branch {c t e : Eval ω Value} :
    BreaksDown (do if (← c).truthy then t else e) s b ↔
      BreaksDown c s b ∨ ∃ v u, c.run s = (.ok v, u) ∧
        (v.truthy = true ∧ BreaksDown t u b ∨ v.truthy = false ∧ BreaksDown e u b) := by
  rw [breaksDown_bind]
  refine or_congr_right (exists₂_congr fun v u => and_congr_right fun _ => ?_)
  cases v.truthy <;> simp

/-- Whether an operator looks at its right operand, too. -/
def BinaryOperator.needsRight : BinaryOperator → Value → Bool
  | .and_, a => a.truthy
  | .or_, a => !a.truthy
  | _, _ => true

theorem operate_of_ne {op : BinaryOperator} (hand : op ≠ .and_) (hor : op ≠ .or_) (a : Value)
    (right : Eval ω Value) : operate op a right = (do
      let c ← right
      report (op.reports a c)
      ofAnswer (op.apply a c)) := by
  cases op with
  | and_ => exact absurd rfl hand
  | or_ => exact absurd rfl hor
  | _ => rfl

theorem breaksDown_operate {op : BinaryOperator} {a : Value} {right : Eval ω Value} :
    BreaksDown (operate op a right) s b ↔ op.needsRight a = true ∧
      (BreaksDown right s b ∨ ∃ c t, right.run s = (.ok c, t) ∧ op.BreaksOn a c b) := by
  by_cases hconnective : op = .and_ ∨ op = .or_
  · -- a connective is not applied: it goes by the truth of its operands
    have happlied : ∀ c, ¬ op.BreaksOn a c b := fun c h => by
      rcases hconnective with rfl | rfl <;> cases BinaryOperator.apply_eq_breakdown_iff.2 h
    have hright : BreaksDown (do return Value.boolean (← right).truthy) s b ↔
        BreaksDown right s b := breaksDown_map
    simp only [happlied, and_false, exists_false, or_false]
    rcases hconnective with rfl | rfl <;> cases ha : a.truthy <;>
      simp only [operate, BinaryOperator.needsRight, ha, hright, not_breaksDown_pure, if_true,
        if_false, true_and, false_and, Bool.false_eq_true, Bool.not_true, Bool.not_false]
  · obtain ⟨hand, hor⟩ := not_or.1 hconnective
    have hneeds : op.needsRight a = true := by
      cases op with
      | and_ => exact absurd rfl hand
      | or_ => exact absurd rfl hor
      | _ => rfl
    rw [operate_of_ne hand hor, breaksDown_bind]
    simp only [hneeds, true_and]
    refine or_congr_right (exists₂_congr fun c t => and_congr_right fun _ => ?_)
    exact BinaryOperator.apply_eq_breakdown_iff

/-- What a function itself breaks down with is told as an error of the call. -/
theorem callFailure_ne_breakdown {name : String} {f : Failure} :
    callFailure name f ≠ .breakdown b := by
  intro h
  cases f <;> cases h

theorem callValue_eq_breakdown_iff (name : String) {data : Data} :
    callValue name data = .error (.breakdown b) ↔
      data.toValue = .error .integerTooLarge ∧ b = .data .integerTooLarge := by
  unfold callValue
  rcases data.toValue with (_ | kind) | v
  · simp [eq_comm]
  · simp [Failure.ofCause]
  · simp

theorem breaksDown_call {functions : Registry ω} {name : String} {args : List Value} :
    BreaksDown (call functions name args) s b ↔
      ∃ d, functions.lookup? name = some d ∧ d.accepts args.length = true ∧
        ∃ data, (d.run args s.host).1 = .ok data ∧ data.toValue = .error .integerTooLarge ∧
          b = .data .integerTooLarge := by
  unfold call
  cases functions.lookup? name with
  | none => exact iff_of_false (fun h => by cases h) (by simp)
  | some d =>
    show BreaksDown (if d.accepts args.length then _ else _) s b ↔ _
    simp only [Option.some.injEq, exists_eq_left']
    split_ifs with haccepts
    · unfold BreaksDown
      rw [run_bind, run_invoke]
      cases (d.run args s.host).1 with
      | error f =>
        refine iff_of_false (fun h => ?_) (by simp)
        exact callFailure_ne_breakdown (Except.error.inj h)
      | ok data => exact (callValue_eq_breakdown_iff name).trans (by simp [haccepts])
    · exact iff_of_false (fun h => by cases h) fun h => haccepts h.1

/-- Two steps return where the first one returns, and the second one does in the store that
    the first one leaves. -/
theorem run_bind_eq_ok {step : Eval ω α} {next : α → Eval ω β} {w : β} {u : Store ω} :
    (step >>= next).run s = (.ok w, u) ↔
      ∃ v t, step.run s = (.ok v, t) ∧ (next v).run t = (.ok w, u) := by
  rw [run_bind]
  rcases step.run s with ⟨f | v, t⟩
  · refine iff_of_false (fun h => by cases h) ?_
    rintro ⟨_, _, h, -⟩
    cases h
  · constructor
    · exact fun h => ⟨v, t, rfl, h⟩
    · rintro ⟨_, _, h, hnext⟩
      cases h
      exact hnext

section
variable {env : Environment ω} {room : ℕ} {x : Node} {xs : List Node}

theorem evaluateAll_cons : evaluateAll env room (x :: xs) = (do
    let v ← x.evaluateIn env false room
    return v :: (← evaluateAll env room xs)) := rfl

theorem run_evaluateAll_cons {vs : List Value} {u : Store ω} :
    (evaluateAll env room (x :: xs)).run s = (.ok vs, u) ↔
      ∃ v t, (x.evaluateIn env false room).run s = (.ok v, t) ∧
        ∃ ws, (evaluateAll env room xs).run t = (.ok ws, u) ∧ vs = v :: ws := by
  rw [evaluateAll_cons, run_bind_eq_ok]
  refine exists₂_congr fun v t => and_congr_right fun _ => ?_
  rw [run_bind_eq_ok]
  constructor
  · rintro ⟨ws, t', hws, h⟩
    cases h
    exact ⟨ws, hws, rfl⟩
  · rintro ⟨ws, hws, rfl⟩
    exact ⟨ws, u, hws, rfl⟩

/-- Of nodes that are evaluated one after the other, the first one that breaks down. -/
theorem breaksDown_evaluateAll : ∀ {s}, BreaksDown (evaluateAll env room xs) s b ↔
    ∃ before x after vs t, xs = before ++ x :: after ∧
      (evaluateAll env room before).run s = (.ok vs, t) ∧
      BreaksDown (x.evaluateIn env false room) t b := by
  induction xs with
  | nil =>
    intro s
    refine iff_of_false (not_breaksDown_pure []) ?_
    rintro ⟨before, x, after, _, _, h, -⟩
    cases before <;> cases h
  | cons x xs ih =>
    intro s
    rw [evaluateAll_cons, breaksDown_bind]
    constructor
    · rintro (hx | ⟨v, t, hx, hrest⟩)
      · exact ⟨[], x, xs, [], s, rfl, rfl, hx⟩
      · obtain ⟨before, y, after, vs, u, rfl, hvs, hy⟩ := ih.1 (breaksDown_map.1 hrest)
        exact ⟨x :: before, y, after, v :: vs, u, rfl,
          run_evaluateAll_cons.2 ⟨v, t, hx, vs, hvs, rfl⟩, hy⟩
    · rintro ⟨before, y, after, vs, u, hxs, hvs, hy⟩
      cases before with
      | nil =>
        cases hxs
        cases hvs
        exact .inl hy
      | cons z before =>
        cases hxs
        obtain ⟨v, t, hx, ws, hws, -⟩ := run_evaluateAll_cons.1 hvs
        exact .inr ⟨v, t, hx, breaksDown_map.2 (ih.2 ⟨_, _, _, _, _, rfl, hws, hy⟩)⟩

end

/-- Behind the passes that a loop has made, its condition or its body. -/
theorem breaksDown_iterate {limits : Limits} {p : Option ℕ} {condition body : Eval ω Value} :
    BreaksDown (iterate limits p condition body limits.maxIterations .null) s b ↔
      ∃ n last t, Passes condition body s n last t ∧
        (n ≤ limits.maxIterations ∧ BreaksDown condition t b ∨
          n < limits.maxIterations ∧ ∃ v u, condition.run t = (.ok v, u) ∧ v.truthy = true ∧
            BreaksDown body u b) := by
  constructor
  · intro h
    have hexists : ∃ n last t, n ≤ limits.maxIterations ∧ Passes condition body s n last t ∧
        LoopEnds limits p condition body n last t
          ((iterate limits p condition body limits.maxIterations .null).run s) :=
      Passes.start.exists_loopEnds limits.maxIterations (Nat.zero_add _)
    obtain ⟨n, last, t, hn, hpasses, hends⟩ := hexists
    refine ⟨n, last, t, hpasses, ?_⟩
    unfold BreaksDown at h
    generalize (iterate limits p condition body limits.maxIterations .null).run s = result
      at h hends
    cases hends with
    | conditionFails hcondition => exact .inl ⟨hn, by rw [BreaksDown, hcondition]; exact h⟩
    | conditionIsFalse => cases h
    | bodyFails hlt hcondition hv hbody =>
      exact .inr ⟨hlt, _, _, hcondition, hv, by rw [BreaksDown, hbody]; exact h⟩
    | stopped => cases h
  · rintro ⟨n, last, t, hpasses, hend⟩
    have hn : n ≤ limits.maxIterations := by
      rcases hend with ⟨hn, -⟩ | ⟨hn, -⟩ <;> omega
    obtain ⟨k, hk⟩ := Nat.exists_eq_add_of_le hn
    unfold BreaksDown
    rw [hk, hpasses.run_iterate k]
    rcases hend with ⟨-, hcondition⟩ | ⟨hlt, v, u, hcondition, hv, hbody⟩
    · cases k <;>
      · unfold iterate
        exact breaksDown_bind.2 (.inl hcondition)
    · obtain ⟨k, rfl⟩ : ∃ m, k = m + 1 := ⟨k - 1, by omega⟩
      rw [run_iterate_true hcondition hv]
      exact breaksDown_bind.2 (.inl hbody)

end

/-! ## Visits -/

/-- The evaluation of a node in a store, with some room left. -/
structure Visit (ω : Type) where
  node : Node
  onChain : Bool
  room : ℕ
  store : Store ω

namespace Visit

/-- What is evaluated breaks down. -/
def BreaksDown (env : Environment ω) (v : Visit ω) (b : Breakdown) : Prop :=
  Rulebook.BreaksDown (v.node.evaluateIn env v.onChain v.room) v.store b

/-- One visit makes another one: of a part of its node, in the store that has been come to by
    then, or of the node itself, the first of a chain. -/
inductive Leads (env : Environment ω) : Visit ω → Visit ω → Prop
  | operand {op x p onChain room s} :
      Leads env ⟨.unary op x p, onChain, room + 1, s⟩ ⟨x, false, room, s⟩
  | chain {op l r p room s} :
      Leads env ⟨.binary op l r p, false, room + 1, s⟩ ⟨.binary op l r p, true, room, s⟩
  | left {op l r p room s} : Leads env ⟨.binary op l r p, true, room, s⟩ ⟨l, true, room, s⟩
  | right {op l r p room s a t} : (l.evaluateIn env true room).run s = (.ok a, t) →
      op.needsRight a = true → Leads env ⟨.binary op l r p, true, room, s⟩ ⟨r, false, room, t⟩
  | argument {name before x after p onChain room s vs t} :
      (evaluateAll env room before).run s = (.ok vs, t) →
      Leads env ⟨.call name (before ++ x :: after) p, onChain, room + 1, s⟩ ⟨x, false, room, t⟩
  | statement {before x after p onChain room s vs t} :
      (evaluateAll env room before).run s = (.ok vs, t) →
      Leads env ⟨.sequence (before ++ x :: after) p, onChain, room + 1, s⟩ ⟨x, false, room, t⟩
  | whenCondition {c t p onChain room s} :
      Leads env ⟨.when c t p, onChain, room + 1, s⟩ ⟨c, false, room, s⟩
  | whenBranch {c t p onChain room s v u} : (c.evaluateIn env false room).run s = (.ok v, u) →
      v.truthy = true → Leads env ⟨.when c t p, onChain, room + 1, s⟩ ⟨t, false, room, u⟩
  | choiceCondition {c t e p onChain room s} :
      Leads env ⟨.choice c t e p, onChain, room + 1, s⟩ ⟨c, false, room, s⟩
  | thenBranch {c t e p onChain room s v u} : (c.evaluateIn env false room).run s = (.ok v, u) →
      v.truthy = true → Leads env ⟨.choice c t e p, onChain, room + 1, s⟩ ⟨t, false, room, u⟩
  | elseBranch {c t e p onChain room s v u} : (c.evaluateIn env false room).run s = (.ok v, u) →
      v.truthy = false → Leads env ⟨.choice c t e p, onChain, room + 1, s⟩ ⟨e, false, room, u⟩
  | loopCondition {c b p onChain room s n last t} :
      Passes (c.evaluateIn env false room) (b.evaluateIn env false room) s n last t →
      n ≤ env.limits.maxIterations →
      Leads env ⟨.loop c b p, onChain, room + 1, s⟩ ⟨c, false, room, t⟩
  | loopBody {c b p onChain room s n last t v u} :
      Passes (c.evaluateIn env false room) (b.evaluateIn env false room) s n last t →
      n < env.limits.maxIterations → (c.evaluateIn env false room).run t = (.ok v, u) →
      v.truthy = true → Leads env ⟨.loop c b p, onChain, room + 1, s⟩ ⟨b, false, room, u⟩
  | assigned {name x p onChain room s} :
      Leads env ⟨.assignment name x p, onChain, room + 1, s⟩ ⟨x, false, room, s⟩
  | logged {x p onChain room s} :
      Leads env ⟨.log x p, onChain, room + 1, s⟩ ⟨x, false, room, s⟩

/-- A visit applies an operator to the values of its operands. -/
inductive Applies (env : Environment ω) : Visit ω → BinaryOperator → Value → Value → Prop
  | intro {op l r p room s a t c u} : (l.evaluateIn env true room).run s = (.ok a, t) →
      op.needsRight a = true → (r.evaluateIn env false room).run t = (.ok c, u) →
      Applies env ⟨.binary op l r p, true, room, s⟩ op a c

/-- A visit calls a function with the values of its arguments, in a state of the host. -/
inductive Calls (env : Environment ω) : Visit ω → Definition ω → List Value → ω → Prop
  | intro {name xs p onChain room s args t d} :
      (evaluateAll env room xs).run s = (.ok args, t) → env.functions.lookup? name = some d →
      d.accepts args.length = true →
      Calls env ⟨.call name xs p, onChain, room + 1, s⟩ d args t.host

/-- The breakdowns that begin at a visit: its operator breaks down on its operands, or the
    function that it calls gives an integer beyond the doubles. -/
inductive Breaks (env : Environment ω) (v : Visit ω) : Breakdown → Prop
  | operator {op a c b} : v.Applies env op a c → op.BreaksOn a c b → Breaks env v b
  | result {d args host data} : v.Calls env d args host → (d.run args host).1 = .ok data →
      data.toValue = .error .integerTooLarge → Breaks env v (.data .integerTooLarge)

variable {env : Environment ω} {v w : Visit ω} {b : Breakdown}

theorem Breaks.breaksDown (h : v.Breaks env b) : v.BreaksDown env b := by
  cases h with
  | operator happlies hbreaks =>
    obtain ⟨hl, hneeds, hr⟩ := happlies
    exact breaksDown_bind.2 (.inr ⟨_, _, hl, breaksDown_located.2
      (breaksDown_operate.2 ⟨hneeds, .inr ⟨_, _, hr, hbreaks⟩⟩)⟩)
  | result hcalls hdata hvalue =>
    obtain ⟨hargs, hlookup, haccepts⟩ := hcalls
    exact breaksDown_visit.2 ⟨_, rfl, breaksDown_bind.2 (.inr ⟨_, _, hargs,
      breaksDown_call.2 ⟨_, hlookup, haccepts, _, hdata, hvalue, rfl⟩⟩)⟩

/-- A breakdown is passed on to the visit that made the one that breaks down. -/
theorem Leads.breaksDown (h : v.Leads env w) (hw : w.BreaksDown env b) : v.BreaksDown env b := by
  cases h with
  | operand => exact breaksDown_visit.2 ⟨_, rfl, breaksDown_bind.2 (.inl hw)⟩
  | @chain op l r p room s =>
    have hvisit : (Node.binary op l r p).evaluateIn env false (room + 1) =
        visit env.limits p (room + 1) ((Node.binary op l r p).evaluateIn env true) := rfl
    rw [BreaksDown, hvisit]
    exact breaksDown_visit.2 ⟨room, rfl, hw⟩
  | left => exact breaksDown_bind.2 (.inl hw)
  | right hl hneeds =>
    exact breaksDown_bind.2 (.inr ⟨_, _, hl, breaksDown_located.2
      (breaksDown_operate.2 ⟨hneeds, .inl hw⟩)⟩)
  | argument hbefore =>
    exact breaksDown_visit.2 ⟨_, rfl, breaksDown_bind.2 (.inl
      (breaksDown_evaluateAll.2 ⟨_, _, _, _, _, rfl, hbefore, hw⟩))⟩
  | statement hbefore =>
    exact breaksDown_visit.2 ⟨_, rfl, breaksDown_map.2
      (breaksDown_evaluateAll.2 ⟨_, _, _, _, _, rfl, hbefore, hw⟩)⟩
  | whenCondition => exact breaksDown_visit.2 ⟨_, rfl, breaksDown_branch.2 (.inl hw)⟩
  | whenBranch hc hv =>
    exact breaksDown_visit.2 ⟨_, rfl, breaksDown_branch.2 (.inr ⟨_, _, hc, .inl ⟨hv, hw⟩⟩)⟩
  | choiceCondition => exact breaksDown_visit.2 ⟨_, rfl, breaksDown_branch.2 (.inl hw)⟩
  | thenBranch hc hv =>
    exact breaksDown_visit.2 ⟨_, rfl, breaksDown_branch.2 (.inr ⟨_, _, hc, .inl ⟨hv, hw⟩⟩)⟩
  | elseBranch hc hv =>
    exact breaksDown_visit.2 ⟨_, rfl, breaksDown_branch.2 (.inr ⟨_, _, hc, .inr ⟨hv, hw⟩⟩)⟩
  | loopCondition hpasses hn =>
    exact breaksDown_visit.2 ⟨_, rfl, breaksDown_iterate.2 ⟨_, _, _, hpasses, .inl ⟨hn, hw⟩⟩⟩
  | loopBody hpasses hn hc hv =>
    exact breaksDown_visit.2 ⟨_, rfl, breaksDown_iterate.2
      ⟨_, _, _, hpasses, .inr ⟨hn, _, _, hc, hv, hw⟩⟩⟩
  | assigned => exact breaksDown_visit.2 ⟨_, rfl, breaksDown_bind.2 (.inl hw)⟩
  | logged => exact breaksDown_visit.2 ⟨_, rfl, breaksDown_bind.2 (.inl hw)⟩

/-- What breaks down in a visit begins there, or in a visit that it makes. -/
theorem BreaksDown.breaks_or_leads (h : v.BreaksDown env b) :
    v.Breaks env b ∨ ∃ w, v.Leads env w ∧ w.BreaksDown env b := by
  obtain ⟨x, onChain, room, s⟩ := v
  cases x with
  | literal =>
    obtain ⟨room, rfl, h⟩ := breaksDown_visit.1 h
    exact absurd h (not_breaksDown_pure _)
  | reference name =>
    obtain ⟨room, rfl, h⟩ := breaksDown_visit.1 h
    rw [Rulebook.BreaksDown, run_variableValue] at h
    cases hname : s.bindings.get? name <;> rw [hname] at h <;> cases h
  | unary =>
    obtain ⟨room, rfl, h⟩ := breaksDown_visit.1 h
    rcases breaksDown_bind.1 h with h | ⟨v, t, -, h⟩
    · exact .inr ⟨_, .operand, h⟩
    · exact absurd (breaksDown_ofAnswer.1 h) UnaryOperator.apply_ne_breakdown
  | binary op l r p =>
    cases onChain with
    | false =>
      obtain ⟨room, rfl, h⟩ := breaksDown_visit.1 h
      exact .inr ⟨_, .chain, h⟩
    | true =>
      rcases breaksDown_bind.1 h with h | ⟨a, t, hl, h⟩
      · exact .inr ⟨_, .left, h⟩
      · obtain ⟨hneeds, h | ⟨c, u, hr, hbreaks⟩⟩ := breaksDown_operate.1 (breaksDown_located.1 h)
        · exact .inr ⟨_, .right hl hneeds, h⟩
        · exact .inl (.operator ⟨hl, hneeds, hr⟩ hbreaks)
  | call name xs =>
    obtain ⟨room, rfl, h⟩ := breaksDown_visit.1 h
    rcases breaksDown_bind.1 h with h | ⟨args, t, hargs, h⟩
    · obtain ⟨before, x, after, vs, t, rfl, hbefore, h⟩ := breaksDown_evaluateAll.1 h
      exact .inr ⟨_, .argument hbefore, h⟩
    · obtain ⟨d, hlookup, haccepts, data, hdata, hvalue, rfl⟩ := breaksDown_call.1 h
      exact .inl (.result ⟨hargs, hlookup, haccepts⟩ hdata hvalue)
  | when =>
    obtain ⟨room, rfl, h⟩ := breaksDown_visit.1 h
    rcases breaksDown_branch.1 h with h | ⟨v, u, hc, ⟨hv, h⟩ | ⟨-, h⟩⟩
    · exact .inr ⟨_, .whenCondition, h⟩
    · exact .inr ⟨_, .whenBranch hc hv, h⟩
    · exact absurd h (not_breaksDown_pure _)
  | choice =>
    obtain ⟨room, rfl, h⟩ := breaksDown_visit.1 h
    rcases breaksDown_branch.1 h with h | ⟨v, u, hc, ⟨hv, h⟩ | ⟨hv, h⟩⟩
    · exact .inr ⟨_, .choiceCondition, h⟩
    · exact .inr ⟨_, .thenBranch hc hv, h⟩
    · exact .inr ⟨_, .elseBranch hc hv, h⟩
  | loop =>
    obtain ⟨room, rfl, h⟩ := breaksDown_visit.1 h
    obtain ⟨n, last, t, hpasses, ⟨hn, h⟩ | ⟨hn, v, u, hc, hv, h⟩⟩ := breaksDown_iterate.1 h
    · exact .inr ⟨_, .loopCondition hpasses hn, h⟩
    · exact .inr ⟨_, .loopBody hpasses hn hc hv, h⟩
  | sequence xs =>
    obtain ⟨room, rfl, h⟩ := breaksDown_visit.1 h
    obtain ⟨before, x, after, vs, t, rfl, hbefore, h⟩ :=
      breaksDown_evaluateAll.1 (breaksDown_map.1 h)
    exact .inr ⟨_, .statement hbefore, h⟩
  | assignment =>
    obtain ⟨room, rfl, h⟩ := breaksDown_visit.1 h
    rcases breaksDown_bind.1 h with h | ⟨v, t, -, h⟩
    · exact .inr ⟨_, .assigned, h⟩
    · cases h
  | log =>
    obtain ⟨room, rfl, h⟩ := breaksDown_visit.1 h
    rcases breaksDown_bind.1 h with h | ⟨v, t, -, h⟩
    · exact .inr ⟨_, .logged, h⟩
    · cases h

/-- How large a visit is: by the nodes of its tree, and by whether it is to a whole chain. -/
def size (v : Visit ω) : ℕ := 2 * v.node.walk.length + (!v.onChain).toNat

/-- Visits that are made for another one are smaller. -/
theorem Leads.size_lt (h : v.Leads env w) : w.size < v.size := by
  cases h <;>
    simp only [size, Node.walk, walkAll_append, walkAll, List.length_cons, List.length_append,
      Bool.not_true, Bool.not_false, Bool.toNat_true, Bool.toNat_false] <;>
    omega

end Visit

/-! ## Nodes that can break down -/

namespace Visit

variable {env : Environment ω} {v w : Visit ω} {b : Breakdown}

end Visit

/-! ## Trees -/

/-- The evaluation of a tree in a store makes a visit. -/
def Node.ComesTo (env : Environment ω) (x : Node) (s : Store ω) (v : Visit ω) : Prop :=
  Relation.ReflTransGen (Visit.Leads env) ⟨x, false, env.limits.maxDepth, s⟩ v

/-- The breakdowns that the evaluation of a tree in a store lets through: those that begin at
    a visit that it makes. -/
def Node.Escapes (env : Environment ω) (x : Node) (s : Store ω) (b : Breakdown) : Prop :=
  ∃ v, x.ComesTo env s v ∧ v.Breaks env b

section
variable {env : Environment ω} {v w : Visit ω} {b : Breakdown}

/-- A breakdown is passed on along all visits. -/
theorem Visit.BreaksDown.of_leads (h : Relation.ReflTransGen (Visit.Leads env) v w)
    (hw : w.BreaksDown env b) : v.BreaksDown env b := by
  induction h using Relation.ReflTransGen.head_induction_on with
  | refl => exact hw
  | head hleads _ ih => exact hleads.breaksDown ih

/-- What breaks down in a visit begins there, or in a visit that is made for it. -/
theorem Visit.BreaksDown.exists_breaks (h : v.BreaksDown env b) :
    ∃ w, Relation.ReflTransGen (Visit.Leads env) v w ∧ w.Breaks env b := by
  induction hsize : v.size using Nat.strongRecOn generalizing v with
  | ind n ih =>
    rcases h.breaks_or_leads with hv | ⟨w, hleads, hw⟩
    · exact ⟨v, .refl, hv⟩
    · obtain ⟨u, hcomes, hu⟩ := ih w.size (hsize ▸ hleads.size_lt) hw rfl
      exact ⟨u, .head hleads hcomes, hu⟩

/-- **An evaluation breaks down where one of its operators or calls does**, and only
    there. -/
theorem Node.breaksDown_iff {x : Node} {s : Store ω} :
    BreaksDown (x.evaluate env) s b ↔ x.Escapes env s b := by
  constructor
  · intro h
    have hvisit : Visit.BreaksDown env ⟨x, false, env.limits.maxDepth, s⟩ b := h
    exact hvisit.exists_breaks
  · rintro ⟨v, hcomes, hbreaks⟩
    exact Visit.BreaksDown.of_leads hcomes hbreaks.breaksDown

end

end Rulebook

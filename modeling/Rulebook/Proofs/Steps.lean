/-
  Steps — what the steps of evaluation do to a store.

  * `run_bind` and the equations beside it run a step in a store.
  * `Quiet step`: the step leaves the variables and the log as they are; steps
    that are put together of quiet steps are quiet.
  * `Node.quiet_evaluate`: expressions are quiet.
-/
import Rulebook.Proofs.Expressions
import Rulebook.Evaluation

namespace Rulebook

/-! ## Running steps -/

section
variable {ε σ α β : Type}

theorem run_bind (step : ExceptT ε (StateM σ) α) (next : α → ExceptT ε (StateM σ) β) (s : σ) :
    (step >>= next).run s = match step.run s with
      | (.ok v, t) => (next v).run t
      | (.error e, t) => (.error e, t) := by
  show ExceptT.bind step next s = _
  simp only [ExceptT.bind, ExceptT.mk, ExceptT.run, bind, StateT.bind]
  rcases step s with ⟨_ | _, t⟩ <;> rfl

/-- What each of two steps makes of a store, both make of it one after the other. -/
theorem related_run_bind {R : σ → σ → Prop} (htrans : ∀ {s t u}, R s t → R t u → R s u)
    {step : ExceptT ε (StateM σ) α} {next : α → ExceptT ε (StateM σ) β}
    (h : ∀ s, R s (step.run s).2) (hnext : ∀ v s, R s ((next v).run s).2) (s : σ) :
    R s ((step >>= next).run s).2 := by
  have hs := h s
  rw [run_bind]
  rcases hrun : step.run s with ⟨_ | v, t⟩
  · rwa [hrun] at hs
  · rw [hrun] at hs
    exact htrans hs (hnext v t)

end

/-- Placing an error changes nothing about its cause. -/
theorem ExpressionError.cause_locatedAt (p : Option ℕ) (e : ExpressionError) :
    (e.locatedAt p).cause = e.cause := by
  unfold locatedAt
  split_ifs <;> rfl

namespace Eval

variable {ω α β : Type}

theorem run_located (p : Option ℕ) (step : Eval ω α) (s : Store ω) :
    (located p step).run s = ((step.run s).1.mapError (Failure.locatedAt p), (step.run s).2) :=
  rfl

theorem run_report (notices : Journal) (s : Store ω) :
    (report notices : Eval ω Unit).run s =
      (.ok (), { s with journal := s.journal ++ notices }) := rfl

theorem run_variableValue (name : String) (s : Store ω) :
    (variableValue name : Eval ω Value).run s =
      ((s.bindings.get? name).elim (.error (.ofCause (.undefinedVariable name))) .ok, s) := by
  unfold variableValue
  rw [run_bind]
  have hget : (get : Eval ω (Store ω)).run s = (.ok s, s) := rfl
  simp only [hget]
  cases s.bindings.get? name <;> rfl

theorem run_invoke (d : Definition ω) (args : List Value) (s : Store ω) :
    (invoke d args).run s = ((d.run args s.host).1.mapError (callFailure d.name),
      { s with host := (d.run args s.host).2 }) := rfl

/-- A node is visited where there is room. -/
theorem run_visit_succ (limits : Limits) (p : Option ℕ) (room : ℕ) (step : ℕ → Eval ω α)
    (s : Store ω) : (visit limits p (room + 1) step).run s = (located p (step room)).run s := rfl

/-! ## Quiet steps -/

/-- Two stores with the same variables and the same log. -/
def SameContext (s t : Store ω) : Prop :=
  t.bindings = s.bindings ∧ t.journal.logged = s.journal.logged

theorem SameContext.refl (s : Store ω) : SameContext s s := ⟨rfl, rfl⟩

theorem SameContext.trans {s t u : Store ω} (h : SameContext s t) (h' : SameContext t u) :
    SameContext s u :=
  ⟨h'.1.trans h.1, h'.2.trans h.2⟩

/-- A step that leaves the variables and the log as they are. -/
def Quiet (step : Eval ω α) : Prop := ∀ s, SameContext s (step.run s).2

theorem quiet_pure (v : α) : Quiet (pure v : Eval ω α) := fun s => .refl s

theorem quiet_throw (f : Failure) : Quiet (throw f : Eval ω α) := fun s => .refl s

theorem quiet_ofAnswer (answer : Except Failure α) : Quiet (ofAnswer answer : Eval ω α) :=
  fun s => .refl s

theorem Quiet.bind {step : Eval ω α} {next : α → Eval ω β} (h : Quiet step)
    (hnext : ∀ v, Quiet (next v)) : Quiet (step >>= next) :=
  related_run_bind (R := SameContext) SameContext.trans h hnext

theorem Quiet.located {step : Eval ω α} (h : Quiet step) (p : Option ℕ) :
    Quiet (located p step) := h

theorem quiet_visit (limits : Limits) (p : Option ℕ) (room : ℕ) {step : ℕ → Eval ω α}
    (h : ∀ room, Quiet (step room)) : Quiet (visit limits p room step) := by
  cases room with
  | zero => exact (quiet_throw _).located p
  | succ room => exact (h room).located p

theorem quiet_report {notices : Journal} (h : notices.logged = []) :
    Quiet (report notices : Eval ω Unit) := by
  intro s
  rw [run_report]
  refine ⟨rfl, ?_⟩
  rw [Journal.logged] at h
  rw [Journal.logged, Journal.logged, List.filterMap_append, h, List.append_nil]

theorem quiet_variableValue (name : String) : Quiet (variableValue name : Eval ω Value) := by
  intro s
  rw [run_variableValue]
  exact .refl s

theorem quiet_invoke (d : Definition ω) (args : List Value) : Quiet (invoke d args) :=
  fun _ => ⟨rfl, rfl⟩

theorem quiet_call (functions : Registry ω) (name : String) (args : List Value) :
    Quiet (call functions name args) := by
  unfold call
  cases functions.lookup? name with
  | none => exact quiet_throw _
  | some d =>
    show Quiet (if d.accepts args.length then _ else _)
    split_ifs
    · exact (quiet_invoke d args).bind fun _ => quiet_ofAnswer _
    · exact quiet_throw _

theorem logged_reports (op : BinaryOperator) (a b : Value) : (op.reports a b).logged = [] := by
  unfold BinaryOperator.reports matching
  split_ifs
  · rfl
  · split <;> rfl
  · rfl

theorem quiet_operate (op : BinaryOperator) (a : Value) {right : Eval ω Value}
    (h : Quiet right) : Quiet (operate op a right) := by
  unfold operate
  split
  · split_ifs
    · exact h.bind fun _ => quiet_pure _
    · exact quiet_pure _
  · split_ifs
    · exact quiet_pure _
    · exact h.bind fun _ => quiet_pure _
  · exact h.bind fun b => (quiet_report (logged_reports _ a b)).bind fun _ => quiet_ofAnswer _

end Eval

/-! ## Expressions -/

open Eval

section
variable {ω : Type} (env : Environment ω)

mutual

theorem Node.quiet_evaluateIn : ∀ {x : Node}, x.isExpression = true → ∀ (onChain : Bool) (room : ℕ),
    Quiet (x.evaluateIn env onChain room)
  | .literal v p, _, _, room => quiet_visit _ p room fun _ => quiet_pure v
  | .reference n p, _, _, room => quiet_visit _ p room fun _ => quiet_variableValue n
  | .unary op x p, h, _, room => by
    have hx : x.isExpression = true := h
    exact quiet_visit _ p room fun room =>
      (Node.quiet_evaluateIn hx false room).bind fun _ => quiet_ofAnswer _
  | .binary op l r p, h, onChain, room => by
    simp only [Node.isExpression, Bool.and_eq_true] at h
    have hstep : ∀ room, Quiet (do
        let a ← l.evaluateIn env true room
        located p (operate op a (r.evaluateIn env false room))) := fun room =>
      (Node.quiet_evaluateIn h.1 true room).bind fun a =>
        (quiet_operate op a (Node.quiet_evaluateIn h.2 false room)).located p
    cases onChain with
    | false => exact quiet_visit _ p room hstep
    | true => exact hstep room
  | .call n xs p, h, _, room =>
    quiet_visit _ p room fun room => (quiet_evaluateAll h room).bind fun _ => quiet_call _ n _
termination_by structural x => x

theorem quiet_evaluateAll : ∀ {xs : List Node}, areExpressions xs = true → ∀ room : ℕ,
    Quiet (evaluateAll env room xs)
  | [], _, _ => quiet_pure []
  | x :: xs, h, room => by
    simp only [areExpressions, Bool.and_eq_true] at h
    exact (Node.quiet_evaluateIn h.1 false room).bind fun _ =>
      (quiet_evaluateAll h.2 room).bind fun _ => quiet_pure _
termination_by structural xs => xs

end

/-- **An expression leaves the variables and the log as they are.** -/
theorem Node.quiet_evaluate {x : Node} (h : x.isExpression = true) : Quiet (x.evaluate env) :=
  Node.quiet_evaluateIn env h false _

end

/-! ## Nodes that are visited where there is room -/

section
variable {ω : Type} (env : Environment ω) (onChain : Bool) (room : ℕ) (p : Option ℕ) (s : Store ω)

/-- A literal is its value. -/
theorem Node.run_literal (v : Value) :
    ((Node.literal v p).evaluateIn env onChain (room + 1)).run s = (.ok v, s) := rfl

/-- A variable is what it is bound to. -/
theorem Node.run_reference (name : String) :
    ((Node.reference name p).evaluateIn env onChain (room + 1)).run s =
      (located p (variableValue name)).run s := rfl

/-- An operator goes by what its operand gives. -/
theorem Node.run_unary (op : UnaryOperator) (x : Node) :
    ((Node.unary op x p).evaluateIn env onChain (room + 1)).run s =
      match (x.evaluateIn env false room).run s with
      | (.ok v, t) => ((op.apply v).mapError (Failure.locatedAt p), t)
      | (.error f, t) => (.error (f.locatedAt p), t) := by
  rw [evaluateIn, run_visit_succ, run_located, run_bind]
  rcases (x.evaluateIn env false room).run s with ⟨_ | v, t⟩ <;> rfl

end

end Rulebook

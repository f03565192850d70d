/-
  Frame — what the evaluation of a tree leaves as it is, whatever comes of it.

  * `Framed x s t`: from `s` to `t` no variable is touched that the tree `x` does not
    assign, none is unbound, and the log only grows, if the tree logs anything.
  * `Frames x step`: wherever the step begins, it ends in such a store; steps that leave
    variables and log as they are do (`Quiet.frames`), and so does what the nodes of the
    tree do themselves (`frames_own`).
  * `Context.evaluate_framed` carries this through whole trees.
-/
import Rulebook.Proofs.Steps
import Rulebook.Proofs.Throughout
import Rulebook.Context

namespace Rulebook

open Eval

variable {ω α β : Type}

/-! ## Stores -/

/-- A tree with a `LOG` in it. -/
def Node.Logs (x : Node) : Prop := ∃ y p, .log y p ∈ x.walk

/-- What a tree may make of a store. -/
structure Framed (x : Node) (s t : Store ω) : Prop where
  /-- A variable that is not assigned is bound as before, or unbound as before. -/
  unassigned : ∀ name ∉ x.assignedNames, t.bindings.get? name = s.bindings.get? name
  bound : ∀ name, s.bindings.has name = true → t.bindings.has name = true
  logged : s.journal.logged <+: t.journal.logged
  grown : t.journal.logged ≠ s.journal.logged → x.Logs

theorem Framed.refl (x : Node) (s : Store ω) : Framed x s s :=
  ⟨fun _ _ => rfl, fun _ h => h, List.prefix_rfl, fun h => absurd rfl h⟩

theorem Framed.trans {x : Node} {s t u : Store ω} (h : Framed x s t) (h' : Framed x t u) :
    Framed x s u where
  unassigned name hname := (h'.unassigned name hname).trans (h.unassigned name hname)
  bound name hname := h'.bound name (h.bound name hname)
  logged := h.logged.trans h'.logged
  grown hne := by
    by_cases heq : t.journal.logged = s.journal.logged
    · exact h'.grown fun heq' => hne (heq'.trans heq)
    · exact h.grown heq

theorem Eval.SameContext.framed {s t : Store ω} (h : SameContext s t) (x : Node) :
    Framed x s t where
  unassigned name _ := by rw [h.1]
  bound name hname := by rwa [h.1]
  logged := h.2 ▸ List.prefix_rfl
  grown hne := absurd h.2 hne

/-! ## Steps -/

/-- A step that does to a store what a tree may do. -/
def Frames (x : Node) (step : Eval ω α) : Prop := ∀ s, Framed x s (step.run s).2

theorem Eval.Quiet.frames {step : Eval ω α} (h : Quiet step) (x : Node) : Frames x step :=
  fun s => (h s).framed x

theorem Frames.bind {x : Node} {step : Eval ω α} {next : α → Eval ω β} (h : Frames x step)
    (hnext : ∀ v, Frames x (next v)) : Frames x (step >>= next) :=
  related_run_bind (R := Framed x) Framed.trans h hnext

theorem compositional_frames (x : Node) :
    Compositional (Having fun α => Frames (ω := ω) (α := α) x) where
  value v := (quiet_pure v).frames x
  bind h hnext := h.bind hnext
  located _ h := h

/-- An assignment binds its target, and nothing else. -/
theorem frames_assign {x : Node} {name : String} (h : name ∈ x.assignedNames) (v : Value) :
    Frames x (assign name v : Eval ω Value) := by
  have hrun : ∀ s : Store ω, ((assign name v).run s).2 =
      { s with bindings := s.bindings.set name v } := fun _ => rfl
  intro s
  rw [hrun]
  refine ⟨fun other hother => ?_, fun other hother => ?_, List.prefix_rfl, fun h => absurd rfl h⟩
  · have hne : other ≠ name := fun heq => hother (heq ▸ h)
    rw [Bindings.get?_set, if_neg hne]
  · rw [Bindings.has] at hother ⊢
    rw [Bindings.get?_set]
    split_ifs
    exacts [rfl, hother]

theorem frames_logValue {x : Node} (h : x.Logs) (v : Value) :
    Frames x (logValue v : Eval ω Value) := by
  have hrun : ∀ s : Store ω, ((logValue v).run s).2 =
      { s with journal := s.journal ++ [.logged v.toText] } := fun _ => rfl
  intro s
  rw [hrun]
  refine ⟨fun _ _ => rfl, fun _ h => h, ?_, fun _ => h⟩
  rw [Journal.logged, Journal.logged, List.filterMap_append]
  exact List.prefix_append _ _

/-- What a node of a tree does itself, the tree may do. -/
theorem frames_own (env : Environment ω) {x y : Node} (hy : y ∈ x.walk) :
    y.StepsRelated env env (Having fun α => Frames (α := α) x) := by
  cases y with
  | reference name p => exact (quiet_variableValue name).frames x
  | unary op z p => exact fun v => (quiet_ofAnswer _).frames x
  | binary op l r p =>
    exact fun a b =>
      ((quiet_report (logged_reports op a b)).bind fun _ => quiet_ofAnswer _).frames x
  | call name xs p => exact fun args => (quiet_call _ name args).frames x
  | loop c b p =>
    exact fun _ _ _ _ hc hb => (compositional_frames x).iterate p hc hb
      ((quiet_report rfl).frames x) _ _
  | assignment name z p => exact frames_assign (List.mem_filterMap.2 ⟨_, hy, rfl⟩)
  | log z p => exact frames_logValue ⟨z, p, hy⟩
  | _ => exact trivial

/-! ## Trees -/

/-- **The frame of a script.** Whatever comes of the evaluation of a tree, a variable that
    no assignment of the tree has as its target is bound as before, no variable is unbound,
    and the log before it begins the log after it, which is longer only if the tree has
    a `LOG` in it. -/
theorem Context.evaluate_framed (c : Context ω) (limits : Limits) (x : Node) :
    Framed x c.store (c.evaluate limits x).2.store := by
  have hroom : Fits ⟨limits, c.functions⟩ ⟨limits, c.functions⟩
      (Having fun α => Frames (ω := ω) (α := α) x) (x.levelsIn false) limits.maxDepth :=
    .inr fun _ => (quiet_throw _).frames x
  exact (compositional_frames x).evaluateIn (fun y hy => frames_own _ hy) hroom c.store

end Rulebook

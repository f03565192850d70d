/-
  Ceiling — what the ceiling of iterations means for loops and for whole evaluations.

  * `Passes condition body s n last t`: `n` passes of a loop lead from `s` to `t`, the
    last of them with the value `last`.
  * `LoopEnds`: how a loop ends behind its last complete pass; at the ceiling it warns
    and goes on with the value of that pass. `exists_loopEnds` finds the last pass of an
    execution, `Passes.run_iterate` skips passes.
  * `SameUnlessStopped a b`: the step `b` does what `a` does, unless `a` warns of
    a loop that was stopped.
  * `ceiling_matters_only_when_announced` carries this through whole trees.
-/
import Rulebook.Proofs.Steps
import Rulebook.Proofs.Throughout
import Rulebook.Context

namespace Rulebook

open Eval

variable {ω α β : Type}

/-! ## Warnings -/

/-- The notice tells of a loop that was stopped at the ceiling. -/
def Notice.isCeiling : Notice → Bool
  | .loopStopped .. => true
  | _ => false

/-- What a journal tells of loops that were stopped. -/
def Journal.ceilings (j : Journal) : Journal := j.filter (·.isCeiling)

/-! ## Passes of a loop -/

/-- Complete passes of a loop, one after the other: before each the condition holds, and
    the body gives it its value. -/
inductive Passes (condition body : Eval ω Value) (s : Store ω) : ℕ → Value → Store ω → Prop
  | start : Passes condition body s 0 .null s
  | pass {n : ℕ} {last v w : Value} {t u t' : Store ω} : Passes condition body s n last t →
      condition.run t = (.ok v, u) → v.truthy = true → body.run u = (.ok w, t') →
      Passes condition body s (n + 1) w t'

/-- How a loop ends that has made `n` complete passes, the last of them with the value
    `last`, and has come to `t`. -/
inductive LoopEnds (limits : Limits) (p : Option ℕ) (condition body : Eval ω Value) (n : ℕ)
    (last : Value) (t : Store ω) : Except Failure Value × Store ω → Prop
  | conditionFails {f u} : condition.run t = (.error f, u) →
      LoopEnds limits p condition body n last t (.error f, u)
  | conditionIsFalse {v u} : condition.run t = (.ok v, u) → v.truthy = false →
      LoopEnds limits p condition body n last t (.ok last, u)
  | bodyFails {v u f t'} : n < limits.maxIterations → condition.run t = (.ok v, u) →
      v.truthy = true → body.run u = (.error f, t') →
      LoopEnds limits p condition body n last t (.error f, t')
  /-- All passes are made and the condition still holds. -/
  | stopped {v u} : n = limits.maxIterations → condition.run t = (.ok v, u) → v.truthy = true →
      LoopEnds limits p condition body n last t
        (.ok last, { u with journal := u.journal ++ [.loopStopped p limits.maxIterations] })

section
variable {limits : Limits} {p : Option ℕ} {condition body : Eval ω Value} {s t u : Store ω}
  {n k : ℕ} {last v : Value}

theorem run_iterate_stopped (h : condition.run t = (.ok v, u)) (hv : v.truthy = true) :
    (iterate limits p condition body 0 last).run t =
      (.ok last, { u with journal := u.journal ++ [.loopStopped p limits.maxIterations] }) := by
  unfold iterate
  rw [run_bind, h]
  simp only [hv, if_true]
  rfl

theorem run_iterate_false (h : condition.run t = (.ok v, u)) (hv : v.truthy = false) :
    (iterate limits p condition body k last).run t = (.ok last, u) := by
  cases k <;>
  · unfold iterate
    rw [run_bind, h]
    simp only [hv, Bool.false_eq_true, if_false]
    rfl

theorem run_iterate_true (h : condition.run t = (.ok v, u)) (hv : v.truthy = true) :
    (iterate limits p condition body (k + 1) last).run t =
      (body >>= iterate limits p condition body k).run u := by
  rw [iterate, run_bind, h]
  simp only [hv, if_true]

/-- Passes that are made need not be made again. -/
theorem Passes.run_iterate (h : Passes condition body s n last t) : ∀ k : ℕ,
    (iterate limits p condition body (n + k) .null).run s =
      (iterate limits p condition body k last).run t := by
  induction h with
  | start => simp
  | @pass n last v w t u t' _ hcondition hv hbody ih =>
    intro k
    rw [Nat.add_right_comm, Nat.add_assoc, ih, run_iterate_true hcondition hv, run_bind, hbody]

/-- Where `k` passes are left, a loop ends after some of them. -/
theorem Passes.exists_loopEnds (k : ℕ) : ∀ {n : ℕ} {last : Value} {t : Store ω},
    Passes condition body s n last t → n + k = limits.maxIterations →
      ∃ n' last' t', n' ≤ limits.maxIterations ∧ Passes condition body s n' last' t' ∧
        LoopEnds limits p condition body n' last' t'
          ((iterate limits p condition body k last).run t) := by
  induction k with
  | zero =>
    intro n last t h hn
    refine ⟨n, last, t, Nat.le_of_eq hn, h, ?_⟩
    rcases hrun : condition.run t with ⟨f | v, u⟩
    · rw [iterate, run_bind, hrun]
      exact .conditionFails hrun
    · cases hv : v.truthy with
      | false =>
        rw [run_iterate_false hrun hv]
        exact .conditionIsFalse hrun hv
      | true =>
        rw [run_iterate_stopped hrun hv]
        exact .stopped hn hrun hv
  | succ k ih =>
    intro n last t h hn
    have hle : n < limits.maxIterations := by omega
    rcases hrun : condition.run t with ⟨f | v, u⟩
    · rw [iterate, run_bind, hrun]
      exact ⟨n, last, t, Nat.le_of_lt hle, h, .conditionFails hrun⟩
    · cases hv : v.truthy with
      | false =>
        rw [run_iterate_false hrun hv]
        exact ⟨n, last, t, Nat.le_of_lt hle, h, .conditionIsFalse hrun hv⟩
      | true =>
        rw [run_iterate_true hrun hv, run_bind]
        rcases hbody : body.run u with ⟨f | w, t'⟩
        · exact ⟨n, last, t, Nat.le_of_lt hle, h, .bodyFails hle hrun hv hbody⟩
        · exact ih (h.pass hrun hv hbody) (by omega)

end

/-! ## Steps under two ceilings -/

/-- The first step only adds to the journal, and the second does the same, unless the
    first warns of a loop that was stopped. -/
def SameUnlessStopped (a b : Eval ω α) : Prop :=
  ∀ s, ∃ notices, (a.run s).2.journal = s.journal ++ notices ∧
    ((∃ n ∈ notices, n.isCeiling = true) ∨ b.run s = a.run s)

theorem sameUnlessStopped_self {a : Eval ω α}
    (h : ∀ s, s.journal <+: (a.run s).2.journal) : SameUnlessStopped a a := by
  intro s
  obtain ⟨notices, hnotices⟩ := h s
  exact ⟨notices, hnotices.symm, .inr rfl⟩

/-- A step that does not report anything. -/
theorem sameUnlessStopped_of_journal {a : Eval ω α}
    (h : ∀ s, (a.run s).2.journal = s.journal) : SameUnlessStopped a a :=
  sameUnlessStopped_self fun s => h s ▸ List.prefix_rfl

theorem SameUnlessStopped.bind {a b : Eval ω α} {f g : α → Eval ω β}
    (h : SameUnlessStopped a b) (hfg : ∀ v, SameUnlessStopped (f v) (g v)) :
    SameUnlessStopped (a >>= f) (b >>= g) := by
  intro s
  obtain ⟨notices, hnotices, hsame⟩ := h s
  rw [run_bind, run_bind]
  rcases hrun : a.run s with ⟨e | v, t⟩
  · rw [hrun] at hnotices hsame
    exact ⟨notices, hnotices, hsame.imp_right fun heq => by rw [heq]⟩
  · rw [hrun] at hnotices hsame
    obtain ⟨more, hmore, hsame'⟩ := hfg v t
    refine ⟨notices ++ more, ?_, ?_⟩
    · rw [hmore, hnotices, List.append_assoc]
    · rcases hsame with ⟨n, hn, hceiling⟩ | heq
      · exact .inl ⟨n, List.mem_append_left _ hn, hceiling⟩
      · rw [heq]
        exact hsame'.imp_left fun ⟨n, hn, hceiling⟩ =>
          ⟨n, List.mem_append_right _ hn, hceiling⟩

theorem SameUnlessStopped.located {a b : Eval ω α} (h : SameUnlessStopped a b) (p : Option ℕ) :
    SameUnlessStopped (located p a) (located p b) := by
  intro s
  obtain ⟨notices, hnotices, hsame⟩ := h s
  rw [run_located, run_located]
  exact ⟨notices, hnotices, hsame.imp_right fun heq => by rw [heq]⟩

theorem sameUnlessStopped_report (notices : Journal) :
    SameUnlessStopped (report notices : Eval ω Unit) (report notices) :=
  sameUnlessStopped_self fun _ => List.prefix_append _ _

theorem compositional_sameUnlessStopped :
    Compositional fun α => SameUnlessStopped (ω := ω) (α := α) where
  value _ := sameUnlessStopped_of_journal fun _ => rfl
  bind h hfg := h.bind hfg
  located p h := h.located p

theorem sameUnlessStopped_ofAnswer (answer : Except Failure α) :
    SameUnlessStopped (ofAnswer answer : Eval ω α) (ofAnswer answer) :=
  sameUnlessStopped_of_journal fun _ => rfl

theorem sameUnlessStopped_call (functions : Registry ω) (name : String) (args : List Value) :
    SameUnlessStopped (call functions name args) (call functions name args) := by
  unfold call
  cases functions.lookup? name with
  | none => exact sameUnlessStopped_ofAnswer _
  | some d =>
    show SameUnlessStopped (if d.accepts args.length then _ else _)
      (if d.accepts args.length then _ else _)
    split_ifs
    · have hinvoke : SameUnlessStopped (invoke d args) (invoke d args) :=
        sameUnlessStopped_of_journal fun _ => rfl
      exact hinvoke.bind fun _ => sameUnlessStopped_ofAnswer _
    · exact sameUnlessStopped_ofAnswer _

/-- Behind the warning of a loop that was stopped, anything may be done. -/
theorem sameUnlessStopped_stopped (p : Option ℕ) (n : ℕ) (next : Unit → Eval ω α)
    (b : Eval ω α) (h : ∀ s, s.journal <+: ((next ()).run s).2.journal) :
    SameUnlessStopped (report [.loopStopped p n] >>= next) b := by
  intro s
  obtain ⟨notices, hnotices⟩ := h { s with journal := s.journal ++ [.loopStopped p n] }
  refine ⟨.loopStopped p n :: notices, ?_, .inl ⟨_, List.mem_cons_self, rfl⟩⟩
  rw [run_bind, run_report, ← hnotices, List.append_assoc, List.singleton_append]

/-- A loop under a higher ceiling makes the same passes, unless it was stopped. -/
theorem SameUnlessStopped.iterate {limits limits' : Limits} {c c' b b' : Eval ω Value}
    (hc : SameUnlessStopped c c') (hb : SameUnlessStopped b b') (p : Option ℕ) (n : ℕ) :
    ∀ {m : ℕ}, n ≤ m → ∀ last : Value,
      SameUnlessStopped (iterate limits p c b n last) (iterate limits' p c' b' m last) := by
  have hsame := compositional_sameUnlessStopped (ω := ω)
  induction n with
  | zero =>
    intro m _ last
    cases m <;>
    · unfold Eval.iterate
      refine hc.bind fun v => ?_
      split_ifs
      exacts [sameUnlessStopped_stopped p _ _ _ fun _ => List.prefix_rfl, hsame.value last]
  | succ n ih =>
    intro m hm last
    obtain ⟨m, rfl⟩ : ∃ k, m = k + 1 := ⟨m - 1, by omega⟩
    unfold Eval.iterate
    exact hsame.branch hc (hsame.bind hb (ih (Nat.le_of_succ_le_succ hm))) (hsame.value last)

/-! ## Trees -/

/-- Limits with another ceiling of iterations. -/
def Limits.withCeiling (limits : Limits) (ceiling : ℕ) : Limits :=
  { limits with maxIterations := ceiling }

/-- What a node does itself is the same under a higher ceiling, unless it is a loop that
    was stopped. -/
theorem Node.sameUnlessStopped_own {limits : Limits} (functions : Registry ω) {ceiling : ℕ}
    (h : limits.maxIterations ≤ ceiling) (x : Node) :
    x.StepsRelated ⟨limits, functions⟩ ⟨limits.withCeiling ceiling, functions⟩
      fun α => SameUnlessStopped (α := α) := by
  cases x with
  | reference name p =>
    exact sameUnlessStopped_of_journal fun s => by rw [run_variableValue]
  | unary op y p => exact fun v => sameUnlessStopped_ofAnswer _
  | binary op l r p =>
    exact fun a b => (sameUnlessStopped_report _).bind fun _ => sameUnlessStopped_ofAnswer _
  | call name xs p => exact sameUnlessStopped_call functions name
  | loop c b p => exact fun _ _ _ _ hc hb => hc.iterate hb p _ h .null
  | assignment name y p => exact fun v => sameUnlessStopped_of_journal fun _ => rfl
  | log y p =>
    exact fun v => (sameUnlessStopped_report _).bind fun _ => sameUnlessStopped_ofAnswer _
  | _ => exact trivial

/-- The evaluation of a tree is the same under a higher ceiling, unless a loop was
    stopped. -/
theorem Node.sameUnlessStopped_evaluate {limits : Limits} (functions : Registry ω) {ceiling : ℕ}
    (h : limits.maxIterations ≤ ceiling) (x : Node) :
    SameUnlessStopped (x.evaluate ⟨limits, functions⟩)
      (x.evaluate ⟨limits.withCeiling ceiling, functions⟩) :=
  compositional_sameUnlessStopped.evaluateIn (fun y _ => y.sameUnlessStopped_own functions h)
    (.inr fun _ => sameUnlessStopped_ofAnswer _)

/-- Nothing was stopped where nothing is told of it. -/
theorem SameUnlessStopped.run_eq {a b : Eval ω α} (h : SameUnlessStopped a b) {s : Store ω}
    (hs : (a.run s).2.journal.ceilings = s.journal.ceilings) : b.run s = a.run s := by
  obtain ⟨notices, hnotices, ⟨n, hn, hceiling⟩ | heq⟩ := h s
  · have hnone : notices.filter (·.isCeiling) = [] := by
      rw [hnotices, Journal.ceilings, Journal.ceilings, List.filter_append] at hs
      exact List.append_right_eq_self.1 hs
    exact absurd hceiling (List.filter_eq_nil_iff.1 hnone n hn)
  · exact heq

/-- **The ceiling matters only when it is announced.** Where an evaluation tells of no loop
    that was stopped, it is the same under every higher ceiling: in answer, variables, log
    and reports. And an execution of a loop makes at most as many passes as the ceiling
    allows; behind the last complete one its condition or its body fails, its condition
    does not hold, or all passes are made and it still holds: then, and only then, the
    loop warns, and goes on with the value of the last pass. -/
theorem ceiling_matters_only_when_announced :
    (∀ (c : Context ω) (limits : Limits) (x : Node) (ceiling : ℕ),
      limits.maxIterations ≤ ceiling →
      (c.evaluate limits x).2.journal.ceilings = c.journal.ceilings →
        c.evaluate (limits.withCeiling ceiling) x = c.evaluate limits x) ∧
    ∀ (env : Environment ω) (onChain : Bool) (room : ℕ) (c b : Node) (p : Option ℕ)
      (s : Store ω), ∃ result : Except Failure Value × Store ω,
        ((Node.loop c b p).evaluateIn env onChain (room + 1)).run s =
          (result.1.mapError (Failure.locatedAt p), result.2) ∧
        (∃ n last t, n ≤ env.limits.maxIterations ∧
          Passes (c.evaluateIn env false room) (b.evaluateIn env false room) s n last t ∧
          LoopEnds env.limits p (c.evaluateIn env false room) (b.evaluateIn env false room)
            n last t result) ∧
        ∀ last t v u, Passes (c.evaluateIn env false room) (b.evaluateIn env false room) s
            env.limits.maxIterations last t →
          (c.evaluateIn env false room).run t = (.ok v, u) → v.truthy = true →
            result = (.ok last, { u with
              journal := u.journal ++ [.loopStopped p env.limits.maxIterations] }) := by
  refine ⟨fun c limits x ceiling h hquiet => ?_, fun env onChain room c b p s => ?_⟩
  · have hrun := (x.sameUnlessStopped_evaluate c.functions h).run_eq hquiet
    unfold Context.evaluate
    rw [hrun]
  · refine ⟨(iterate env.limits p (c.evaluateIn env false room) (b.evaluateIn env false room)
      env.limits.maxIterations .null).run s, rfl, ?_, fun last t v u h hcondition hv => ?_⟩
    · exact Passes.start.exists_loopEnds env.limits.maxIterations (Nat.zero_add _)
    · exact (h.run_iterate 0).trans (run_iterate_stopped hcondition hv)

/-- A loop that ends after one pass: `WHILE x DO x = FALSE`. -/
def turnsOff : Node :=
  .loop (.reference "x" (some 6)) (.assignment "x" (.literal (.boolean false) (some 15)) (some 11))
    (some 0)

/-- A loop that does not end by itself: `WHILE TRUE DO "again"`. -/
def endlessLoop : Node :=
  .loop (.literal (.boolean true) (some 6)) (.literal (.text "again") (some 14)) (some 0)

/-- Limits that allow a loop one pass. -/
def onePass : Limits := Limits.standard.withCeiling 1

/-- A store in which `x` is true. -/
def turnedOn : Store Unit := ⟨[("x", .boolean true)], [], ()⟩

/-- Under a ceiling of one pass, the loop that needs one is not stopped, and so does what
    it does under any ceiling; the one that does not end is stopped behind its pass. -/
theorem onePass_stops_endlessLoop :
    ((Context.mk [] turnedOn).evaluate onePass turnsOff).2.journal.ceilings = [] ∧
      (Context.mk [] turnedOn).evaluate (onePass.withCeiling 1000) turnsOff =
        (Context.mk [] turnedOn).evaluate onePass turnsOff ∧
      (endlessLoop.evaluateIn ⟨onePass, []⟩ false 2).run turnedOn =
        (.ok (.text "again"), { turnedOn with journal := [.loopStopped (some 0) 1] }) := by
  have hquiet : ((Context.mk [] turnedOn).evaluate onePass turnsOff).2.journal.ceilings = [] := rfl
  refine ⟨hquiet, ceiling_matters_only_when_announced.1 _ _ _ 1000 (by decide) hquiet, ?_⟩
  obtain ⟨result, hrun, -, hstopped⟩ := ceiling_matters_only_when_announced.2
    (⟨onePass, []⟩ : Environment Unit) false 1 (.literal (.boolean true) (some 6))
    (.literal (.text "again") (some 14)) (some 0) turnedOn
  have hpass : Passes ((Node.literal (.boolean true) (some 6)).evaluateIn
      (⟨onePass, []⟩ : Environment Unit) false 1)
      ((Node.literal (.text "again") (some 14)).evaluateIn ⟨onePass, []⟩ false 1)
      turnedOn 1 (.text "again") turnedOn := Passes.start.pass rfl rfl rfl
  rw [hstopped _ _ _ _ hpass rfl rfl] at hrun
  exact hrun

end Rulebook

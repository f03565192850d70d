/-
  Independence — rules that do not touch what the other reads or assigns.

  * `Rule.Escapes env r b`: the evaluation of an expression of the rule `r` lets `b` through.
  * `Confined E reads writes returns step`: the step of firing reads and binds some
    variables only, breaks down only with what `E` allows, and what it returns is as said;
    steps that are put together of such steps are such steps.
  * `Rule.confined_fire`: the firing of a compiled rule reads the variables that it
    refers to, and binds its targets.
  * `Alike E same x y`: two runs both break down, or both end with values that
    go together and with all variables bound alike.
  * `Confined.exchange`: of two confined steps that do not touch what the other reads
    or binds, it does not matter which is first.
  * `independent_rules_commute` carries this through the firing of a rule set.
-/
import Rulebook.Proofs.Dependence
import Rulebook.Proofs.Conditions
import Rulebook.Proofs.Priorities

namespace Rulebook

open Eval Firing

variable {ω : Type}

/-! ## Confined steps -/

/-- A step of firing that reads and binds some variables only, and breaks down with some
    breakdowns only. -/
structure Confined (E : Breakdown → Prop) (reads writes : List String) {α : Type}
    (returns : α → Prop) (step : Firing ω α) : Prop where
  dependsOn : DependsOn reads step
  keeps : ∀ s, ∀ name ∉ writes, (step.run s).2.bindings.get? name = s.bindings.get? name
  escapes : ∀ s b, (step.run s).1 = .error b → E b
  returned : ∀ s v, (step.run s).1 = .ok v → returns v

section
variable {E : Breakdown → Prop} {reads writes : List String} {α β : Type} {P : α → Prop}
  {Q : β → Prop}

theorem Confined.mono {reads' writes' : List String} {step : Firing ω α}
    (h : Confined E reads writes P step) (hreads : reads ⊆ reads')
    (hwrites : writes ⊆ writes') : Confined E reads' writes' P step :=
  ⟨h.dependsOn.mono hreads, fun s name hname => h.keeps s name fun hmem => hname (hwrites hmem),
    h.escapes, h.returned⟩

theorem confined_pure {v : α} (h : P v) :
    Confined E reads writes P (pure v : Firing ω α) where
  dependsOn := dependsOn_pure v
  keeps _ _ _ := rfl
  escapes _ _ hb := by cases hb
  returned _ _ hv := by
    cases hv
    exact h

theorem Confined.bind {step : Firing ω α} {next : α → Firing ω β}
    (h : Confined E reads writes P step)
    (hnext : ∀ v, P v → Confined E reads writes Q (next v)) :
    Confined E reads writes Q (step >>= next) := by
  have hsecond : ∀ {s v t}, step.run s = (.ok v, t) →
      Confined E reads writes Q (next v) := fun {s v t} hrun =>
    hnext v (h.returned s v (congrArg Prod.fst hrun))
  refine ⟨h.dependsOn.bind_returned fun s v hv => (hnext v (h.returned s v hv)).dependsOn,
    fun s name hname => ?_, fun s b hb => ?_, fun s w hw => ?_⟩
  · have hs := h.keeps s name hname
    rw [run_bind]
    rcases hrun : step.run s with ⟨b | v, t⟩
    · rwa [hrun] at hs
    · rw [hrun] at hs
      exact ((hsecond hrun).keeps t name hname).trans hs
  · rw [run_bind] at hb
    rcases hrun : step.run s with ⟨b' | v, t⟩
    · rw [hrun] at hb
      cases hb
      exact h.escapes s b (congrArg Prod.fst hrun)
    · rw [hrun] at hb
      exact (hsecond hrun).escapes t b hb
  · rw [run_bind] at hw
    rcases hrun : step.run s with ⟨b' | v, t⟩
    · rw [hrun] at hw
      cases hw
    · rw [hrun] at hw
      exact (hsecond hrun).returned t w hw

theorem confined_report (n : Notice) :
    Confined E reads writes (fun _ => True) (Firing.report n : Firing ω Unit) where
  dependsOn _ _ _ := ⟨rfl, changeAlike_of_report [n] ⟨rfl, rfl⟩ ⟨rfl, rfl⟩⟩
  keeps _ _ _ := rfl
  escapes _ _ hb := by cases hb
  returned _ _ _ := trivial

theorem confined_assign {name : String} (h : name ∈ writes) (v : Value) :
    Confined E reads writes (fun _ => True) (Firing.assign name v : Firing ω Unit) where
  dependsOn s t hst := ⟨rfl, (dependsOn_assign name v s t hst).2⟩
  keeps s other hother := by
    have hne : other ≠ name := fun heq => hother (heq ▸ h)
    show (s.bindings.set name v).get? other = _
    rw [Bindings.get?_set, if_neg hne]
  escapes _ _ hb := by cases hb
  returned _ _ _ := trivial

/-- An attempt reads what its expression refers to, and binds nothing. -/
theorem confined_attempt {env : Environment ω} (hpure : env.functions.IsPure) {x : Node}
    (hexpression : x.isExpression = true) (hx : x.referencedVariables ⊆ reads)
    (hescapes : ∀ s b, x.Escapes env s b → E b) :
    Confined E reads writes (fun _ => True) (attempt env x) where
  dependsOn s t hst := by
    obtain ⟨hanswer, hchange⟩ := Node.dependsOn_evaluate env hpure x s t (hst.mono hx)
    rw [attempt_run, attempt_run]
    exact ⟨congrArg attempted hanswer, hchange⟩
  keeps s name _ := by
    rw [attempt_run]
    exact congrArg (Bindings.get? · name) (Node.quiet_evaluate env hexpression s).1
  escapes s b hb := by
    rw [attempt_run] at hb
    rcases hrun : ((x.evaluate env).run s).1 with (e | b') | v <;> rw [hrun] at hb <;> cases hb
    exact hescapes s b (Node.breaksDown_iff.1 hrun)
  returned _ _ _ := trivial

end

/-! ## The firing of rules -/

theorem fireAll_cons (env : Environment ω) (r : Rule) (rest : List Rule) :
    fireAll env false (r :: rest) =
      (do let o ← r.fire env; return o :: (← fireAll env false rest)) := by
  rw [fireAll]
  simp

theorem fireAll_append (env : Environment ω) (rules rules' : List Rule) :
    fireAll env false (rules ++ rules') =
      (do let past ← fireAll env false rules; return past ++ (← fireAll env false rules')) := by
  induction rules with
  | nil => simp [fireAll]
  | cons r rest ih => simp [fireAll_cons, ih]

/-- The breakdowns that the evaluation of an expression of a rule lets through. -/
def Rule.Escapes (env : Environment ω) (r : Rule) (b : Breakdown) : Prop :=
  ∃ x ∈ r.expressions, ∃ s, x.Escapes env s b

section
variable {env : Environment ω} (hpure : env.functions.IsPure) {E : Breakdown → Prop}
include hpure

theorem Rule.confined_check {r : Rule} (h : r.condition.isExpression = true)
    (hescapes : ∀ b, r.Escapes env b → E b) :
    Confined E r.referencedVariables r.targets (·.rule = r) (r.check env) := by
  have hcondition : r.condition.referencedVariables ⊆ r.referencedVariables := fun name hname =>
    List.mem_flatMap.2 ⟨r.condition, List.mem_cons_self, hname⟩
  unfold Rule.check
  have hattempt : Confined E r.referencedVariables r.targets (fun _ => True)
      (attempt env r.condition) := confined_attempt hpure h hcondition fun s b hb =>
    hescapes b ⟨_, List.mem_cons_self, s, hb⟩
  refine hattempt.bind fun answer _ => ?_
  cases answer with
  | ok v => exact confined_pure rfl
  | error e => exact (confined_report _).bind fun _ _ => confined_pure rfl

theorem Rule.confined_carryOut {r : Rule} (h : ∀ x ∈ r.expressions, x.isExpression = true)
    (hescapes : ∀ b, r.Escapes env b → E b) {actions : List Action}
    (hactions : ∀ a ∈ actions, a ∈ r.actions) : ∀ assigned : Bindings,
      Confined E r.referencedVariables r.targets (·.rule = r)
        (r.carryOut env actions assigned) := by
  induction actions with
  | nil => exact fun _ => (confined_report _).bind fun _ _ => confined_pure rfl
  | cons a rest ih =>
    intro assigned
    have ha : a ∈ r.actions := hactions a (by simp)
    have hx : a.expression ∈ r.expressions := List.mem_cons_of_mem _ (List.mem_map.2 ⟨a, ha, rfl⟩)
    have hreads : a.expression.referencedVariables ⊆ r.referencedVariables := fun name hname =>
      List.mem_flatMap.2 ⟨a.expression, hx, hname⟩
    have htarget : a.target ∈ r.targets := List.mem_map.2 ⟨a, ha, rfl⟩
    unfold Rule.carryOut
    have hattempt : Confined E r.referencedVariables r.targets (fun _ => True)
        (attempt env a.expression) := confined_attempt hpure (h _ hx) hreads fun s b hb =>
      hescapes b ⟨_, hx, s, hb⟩
    refine hattempt.bind fun answer _ => ?_
    cases answer with
    | ok v =>
      exact (confined_assign htarget v).bind fun _ _ => ih (fun a ha => hactions a (by simp [ha])) _
    | error e => exact (confined_report _).bind fun _ _ => confined_pure rfl

/-- **A rule reads the variables that it refers to, and binds its targets.** -/
theorem Rule.confined_fire {r : Rule} (h : ∀ x ∈ r.expressions, x.isExpression = true)
    (hescapes : ∀ b, r.Escapes env b → E b) :
    Confined E r.referencedVariables r.targets (·.rule = r) (r.fire env) := by
  unfold Rule.fire
  refine (Rule.confined_check hpure (h _ List.mem_cons_self) hescapes).bind fun o ho => ?_
  split_ifs
  · exact Rule.confined_carryOut hpure h hescapes (fun a ha => ha) []
  · exact confined_pure ho

/-- Rules one after the other read and bind what they read and bind together. -/
theorem confined_fireAll {rules : List Rule}
    (h : ∀ r ∈ rules, ∀ x ∈ r.expressions, x.isExpression = true)
    (hescapes : ∀ r ∈ rules, ∀ b, r.Escapes env b → E b) :
    Confined E (rules.flatMap (·.referencedVariables)) (rules.flatMap (·.targets))
      (·.map (·.rule) = rules) (fireAll env false rules) := by
  induction rules with
  | nil => exact confined_pure rfl
  | cons r rest ih =>
    have hfirst := (Rule.confined_fire hpure (h r (by simp)) (hescapes r (by simp))).mono
      (List.subset_append_left r.referencedVariables (rest.flatMap (·.referencedVariables)))
      (List.subset_append_left r.targets (rest.flatMap (·.targets)))
    have hrest := (ih (fun r hr => h r (by simp [hr])) fun r hr => hescapes r (by simp [hr])).mono
      (List.subset_append_right r.referencedVariables (rest.flatMap (·.referencedVariables)))
      (List.subset_append_right r.targets (rest.flatMap (·.targets)))
    rw [fireAll_cons]
    refine hfirst.bind fun o ho => hrest.bind fun outcomes houtcomes => confined_pure ?_
    rw [List.map_cons, ho, houtcomes]

end

/-! ## Runs that go together -/

/-- Two stores that bind all variables alike. -/
def SameBindings (s t : Store ω) : Prop := ∀ name, s.bindings.get? name = t.bindings.get? name

/-- Two runs both break down, or both end with values that go together and with all
    variables bound alike. -/
inductive Alike (E : Breakdown → Prop) {α β : Type} (same : α → β → Prop) :
    Except Breakdown α × Store ω → Except Breakdown β × Store ω → Prop
  | broken {b b' s t} : E b → E b' →
      Alike E same (.error b, s) (.error b', t)
  | ended {v w s t} : same v w → SameBindings s t → Alike E same (.ok v, s) (.ok w, t)

section
variable {E : Breakdown → Prop} {α β α' β' : Type} {P : α → Prop} {Q : β → Prop}

theorem Alike.bind {same : α → β → Prop} {same' : α' → β' → Prop} {p : Firing ω α}
    {q : Firing ω β} {f : α → Firing ω α'} {g : β → Firing ω β'} {s t : Store ω}
    (h : Alike E same (p.run s) (q.run t))
    (hnext : ∀ v w s' t', same v w → SameBindings s' t' →
      Alike E same' ((f v).run s') ((g w).run t')) :
    Alike E same' ((p >>= f).run s) ((q >>= g).run t) := by
  rw [run_bind, run_bind]
  generalize p.run s = x at h
  generalize q.run t = y at h
  cases h with
  | broken hb hb' => exact .broken hb hb'
  | ended hsame hst => exact hnext _ _ _ _ hsame hst

/-- A confined step does not tell stores apart that bind all variables alike. -/
theorem Confined.alike {reads writes : List String} {p : Firing ω α}
    (h : Confined E reads writes P p) {s t : Store ω} (hst : SameBindings s t) :
    Alike E (fun v w => v = w ∧ P v) (p.run s) (p.run t) := by
  obtain ⟨hanswer, hchange⟩ := h.dependsOn s t fun name _ => hst name
  have hbound : SameBindings (p.run s).2 (p.run t).2 := fun name => by
    have hname : BoundAlike [name] s t := fun other _ => hst other
    exact hchange.boundAlike hname name (by simp)
  have hescapes := h.escapes s
  have hreturned := h.returned s
  rcases hs : p.run s with ⟨b | v, s'⟩ <;> rcases ht : p.run t with ⟨b' | v', t'⟩ <;>
    simp only [hs, ht, Except.error.injEq, Except.ok.injEq, reduceCtorEq] at hanswer hbound
  · subst hanswer
    have hb : E b := hescapes b (congrArg Prod.fst hs)
    exact .broken hb hb
  · subst hanswer
    exact .ended ⟨rfl, hreturned v (congrArg Prod.fst hs)⟩ hbound

/-- Where a first and a second run from `s` lead to `s₁` and `s₂`, and each of them is
    run again behind the other, the same variables are reached. -/
theorem sameBindings_of_changeAlike {writes₁ writes₂ : List String}
    (hdisjoint : writes₁.Disjoint writes₂) {s s₁ s₂ s₁₂ s₂₁ : Store ω}
    (h₁ : ∀ name ∉ writes₁, s₁.bindings.get? name = s.bindings.get? name)
    (h₁' : ∀ name ∉ writes₁, s₂₁.bindings.get? name = s₂.bindings.get? name)
    (h₂ : ∀ name ∉ writes₂, s₂.bindings.get? name = s.bindings.get? name)
    (h₂' : ∀ name ∉ writes₂, s₁₂.bindings.get? name = s₁.bindings.get? name)
    (hchange₁ : ChangeAlike s s₂ s₁ s₂₁) (hchange₂ : ChangeAlike s s₁ s₂ s₁₂) :
    SameBindings s₁₂ s₂₁ := by
  intro name
  by_cases hname : name ∈ writes₂
  · have hother : name ∉ writes₁ := fun h => hdisjoint h hname
    rcases hchange₂.bindings name with heq | ⟨hs₂, hs₁₂⟩
    · rw [← heq, h₁' name hother]
    · rw [hs₁₂, h₁ name hother, h₁' name hother, hs₂]
  · rcases hchange₁.bindings name with heq | ⟨hs₁, hs₂₁⟩
    · rw [h₂' name hname, heq]
    · rw [h₂' name hname, hs₁, hs₂₁, h₂ name hname]

/-- Where a confined step leads behind another that binds nothing that it reads: it
    returns what it returns without the other, and changes the store alike. -/
theorem Confined.behind {reads writes writes' : List String} {p : Firing ω α}
    (hp : Confined E reads writes P p) (hdisjoint : writes'.Disjoint reads)
    {s t : Store ω} (ht : ∀ name ∉ writes', t.bindings.get? name = s.bindings.get? name) :
    (p.run t).1 = (p.run s).1 ∧ ChangeAlike s t (p.run s).2 (p.run t).2 := by
  have hst : BoundAlike reads s t := fun name hname => (ht name fun h => hdisjoint h hname).symm
  obtain ⟨hanswer, hchange⟩ := hp.dependsOn s t hst
  exact ⟨hanswer.symm, hchange⟩

/-- **Confined steps that do not touch what the other reads or binds** can be made in
    either order. -/
theorem Confined.exchange {reads₁ writes₁ reads₂ writes₂ : List String} {p : Firing ω α}
    {q : Firing ω β} (hp : Confined E reads₁ writes₁ P p)
    (hq : Confined E reads₂ writes₂ Q q) (hwrites : writes₁.Disjoint writes₂)
    (hreads₁ : writes₂.Disjoint reads₁) (hreads₂ : writes₁.Disjoint reads₂) (s : Store ω) :
    Alike E (fun x y => x = y.swap ∧ P x.1 ∧ Q x.2)
      ((do let v ← p; return (v, ← q) : Firing ω (α × β)).run s)
      ((do let w ← q; return (w, ← p) : Firing ω (β × α)).run s) := by
  obtain ⟨hanswer₁, hchange₁⟩ := hp.behind hreads₁ (hq.keeps s)
  obtain ⟨hanswer₂, hchange₂⟩ := hq.behind hreads₂ (hp.keeps s)
  have hbound := sameBindings_of_changeAlike hwrites (hp.keeps s) (hp.keeps (q.run s).2)
    (hq.keeps s) (hq.keeps (p.run s).2) hchange₁ hchange₂
  have hescapes₁ := hp.escapes s
  have hescapes₂ := hq.escapes s
  have hreturned₁ := hp.returned s
  have hreturned₂ := hq.returned s
  simp only [run_bind]
  rcases hp₁ : p.run s with ⟨b | v, s₁⟩ <;> rcases hq₂ : q.run s with ⟨b' | w, s₂⟩ <;>
    simp only [hp₁, hq₂] at hanswer₁ hanswer₂ hbound hescapes₁ hescapes₂ hreturned₁ hreturned₂
  · exact .broken (hescapes₁ b rfl) (hescapes₂ b' rfl)
  · -- the second order meets the breakdown of the first step behind the second one
    rcases hp₂ : p.run s₂ with ⟨_ | _, s₂₁⟩ <;> rw [hp₂] at hanswer₁ <;> cases hanswer₁
    simp only [hp₂]
    exact .broken (hescapes₁ b rfl) (hescapes₁ b rfl)
  · rcases hq₁ : q.run s₁ with ⟨_ | _, s₁₂⟩ <;> rw [hq₁] at hanswer₂ <;> cases hanswer₂
    simp only [hq₁]
    exact .broken (hescapes₂ b' rfl) (hescapes₂ b' rfl)
  · rcases hp₂ : p.run s₂ with ⟨_ | _, s₂₁⟩ <;> rw [hp₂] at hanswer₁ hbound <;> cases hanswer₁
    rcases hq₁ : q.run s₁ with ⟨_ | _, s₁₂⟩ <;> rw [hq₁] at hanswer₂ hbound <;> cases hanswer₂
    simp only [hp₂, hq₁]
    exact .ended ⟨rfl, hreturned₁ _ rfl, hreturned₂ _ rfl⟩ hbound

end

/-! ## Independent rules -/

/-- Neither of two rules assigns what the other assigns or reads. -/
structure Rule.Independent (r₁ r₂ : Rule) : Prop where
  targets : r₁.targets.Disjoint r₂.targets
  first : r₂.targets.Disjoint r₁.referencedVariables
  second : r₁.targets.Disjoint r₂.referencedVariables

instance (r₁ r₂ : Rule) : Decidable (r₁.Independent r₂) :=
  decidable_of_iff
    ((∀ name ∈ r₁.targets, name ∉ r₂.targets ∧ name ∉ r₂.referencedVariables) ∧
      ∀ name ∈ r₂.targets, name ∉ r₁.referencedVariables)
    ⟨fun h => ⟨fun _ h₁ => (h.1 _ h₁).1, fun _ h₂ => h.2 _ h₂, fun _ h₁ => (h.1 _ h₁).2⟩,
      fun h => ⟨fun _ h₁ => ⟨fun h₂ => h.targets h₁ h₂, fun h₂ => h.second h₁ h₂⟩,
        fun _ h₂ h₁ => h.first h₂ h₁⟩⟩

section
variable {env : Environment ω} {before after : List Rule} {r₁ r₂ : Rule}

/-- The firing of two neighbours among rules. -/
theorem fireAll_neighbours (env : Environment ω) (before after : List Rule) (r₁ r₂ : Rule) :
    fireAll env false (before ++ r₁ :: r₂ :: after) =
      (do
        let past ← fireAll env false before
        let two ← (do let o₁ ← r₁.fire env; return (o₁, ← r₂.fire env) :
          Firing ω (Outcome × Outcome))
        let future ← fireAll env false after
        return past ++ two.1 :: two.2 :: future) := by
  simp [fireAll_append, fireAll_cons]

/-- Outcomes that differ in the order of two neighbours only, and tell of the rules
    that were fired. -/
def Exchanged (before : List Rule) (r₁ r₂ : Rule) (after : List Rule)
    (outcomes outcomes' : List Outcome) : Prop :=
  ∃ past o₁ o₂ future, outcomes = past ++ o₁ :: o₂ :: future ∧
    outcomes' = past ++ o₂ :: o₁ :: future ∧ past.map (·.rule) = before ∧ o₁.rule = r₁ ∧
    o₂.rule = r₂ ∧ future.map (·.rule) = after

theorem fireAll_exchange (hpure : env.functions.IsPure)
    (h : ∀ r ∈ before ++ r₁ :: r₂ :: after, ∀ x ∈ r.expressions, x.isExpression = true)
    {E : Breakdown → Prop}
    (hescapes : ∀ r ∈ before ++ r₁ :: r₂ :: after, ∀ b, r.Escapes env b → E b)
    (hindependent : r₁.Independent r₂) (s : Store ω) :
    Alike E (Exchanged before r₁ r₂ after)
      ((fireAll env false (before ++ r₁ :: r₂ :: after)).run s)
      ((fireAll env false (before ++ r₂ :: r₁ :: after)).run s) := by
  have hbefore := confined_fireAll hpure (fun r (hr : r ∈ before) => h r (by simp [hr]))
    fun r hr => hescapes r (by simp [hr])
  have hafter := confined_fireAll hpure (fun r (hr : r ∈ after) => h r (by simp [hr]))
    fun r hr => hescapes r (by simp [hr])
  have hfirst := Rule.confined_fire hpure (h r₁ (by simp)) (hescapes r₁ (by simp))
  have hsecond := Rule.confined_fire hpure (h r₂ (by simp)) (hescapes r₂ (by simp))
  rw [fireAll_neighbours, fireAll_neighbours, run_bind, run_bind]
  rcases hrun : (fireAll env false before).run s with ⟨b | past, t⟩
  · have hb : E b := hbefore.escapes s b (congrArg Prod.fst hrun)
    exact .broken hb hb
  · have hpast : past.map (·.rule) = before := hbefore.returned s past (congrArg Prod.fst hrun)
    have htwo := hfirst.exchange hsecond hindependent.targets hindependent.first
      hindependent.second t
    refine htwo.bind fun x y u u' hxy huu' => ?_
    obtain ⟨rfl, hrule₁, hrule₂⟩ := hxy
    refine (hafter.alike huu').bind fun future _ v v' hfuture hvv' => ?_
    obtain ⟨rfl, hfuture⟩ := hfuture
    exact .ended ⟨past, y.2, y.1, future, rfl, rfl, hpast, hrule₁, hrule₂, hfuture⟩ hvv'

end

/-- **Independent rules commute.** Two rules of one priority, neighbours in the order of
    a compiled set and neither assigning what the other assigns or reads, are given in
    each other's place. They make a set again, and with pure functions it is fired from
    any context with the same outcome of each rule and the same variables at the end —
    unless breakdowns escape from both firings that expressions of the rules let through. -/
theorem independent_rules_commute {first between rest before after : List Rule} {r₁ r₂ : Rule}
    {limits : Limits} {defaults : List (String × Data)} {name : String} {s : RuleSet}
    (hset : RuleSet.ofRules (first ++ r₁ :: (between ++ r₂ :: rest)) limits defaults name = .ok s)
    (hcompiled : s.IsCompiled) (horder : s.rules = before ++ r₁ :: r₂ :: after)
    (hrank : r₁.priority.rank = r₂.priority.rank) (hindependent : r₁.Independent r₂) :
    ∃ t, RuleSet.ofRules (first ++ r₂ :: (between ++ r₁ :: rest)) limits defaults name = .ok t ∧
      ∀ {ω : Type} (c : Context ω), c.functions.IsPure →
        (∃ b b', (s.fire false c).1 = .error b ∧ (t.fire false c).1 = .error b' ∧
          (∃ r ∈ s.rules, r.Escapes ⟨s.limits, c.functions⟩ b) ∧
          ∃ r ∈ s.rules, r.Escapes ⟨s.limits, c.functions⟩ b') ∨
        ∃ outcomes outcomes', (s.fire false c).1 = .ok outcomes ∧
          (t.fire false c).1 = .ok outcomes' ∧ Exchanged before r₁ r₂ after outcomes outcomes' ∧
          ∀ name, (s.fire false c).2.bindings.get? name = (t.fire false c).2.bindings.get? name := by
  refine ⟨_, RuleSet.ofRules_exchange hset horder hrank, fun c hpure => ?_⟩
  have hexpressions : ∀ r ∈ before ++ r₁ :: r₂ :: after, ∀ x ∈ r.expressions,
      x.isExpression = true := by
    intro r hr
    obtain ⟨limits, e, he⟩ := hcompiled r (horder ▸ hr)
    exact RuleEntry.isExpression_of_compile he
  have hpure : (⟨s.limits, c.functions⟩ : Environment _).functions.IsPure := hpure
  have halike := fireAll_exchange hpure hexpressions
    (E := fun b => ∃ r ∈ before ++ r₁ :: r₂ :: after, r.Escapes ⟨s.limits, c.functions⟩ b)
    (fun r hr b hb => ⟨r, hr, hb⟩) hindependent c.store
  simp only [RuleSet.fire, RuleSet.runIn, Context.bindings, horder]
  generalize (fireAll _ _ (before ++ r₁ :: r₂ :: after)).run c.store = x at halike ⊢
  generalize (fireAll _ _ (before ++ r₂ :: r₁ :: after)).run c.store = y at halike ⊢
  cases halike with
  | broken hb hb' => exact .inl ⟨_, _, rfl, rfl, hb, hb'⟩
  | ended hexchanged hbound => exact .inr ⟨_, _, rfl, rfl, hexchanged, hbound⟩

/-- The tree of a text that is an expression. -/
def parsedExpression (source : String) : Node :=
  (parse .expression Limits.standard.maxNesting source).toOption.getD (.literal .null none)

/-- A rule of priority zero. -/
def plainRule (name condition : String) (assignments : List (String × String)) : Rule where
  name
  when := condition
  assignments
  priority := .integer 0
  description := ""
  tags := []
  condition := parsedExpression condition
  actions := assignments.map fun a => ⟨a.1, a.2, parsedExpression a.2⟩

/-- The texts of a rule are expressions. -/
def RuleEntry.isReadable (e : RuleEntry) : Bool :=
  (e.when :: e.assignments.map (·.2)).all fun source =>
    (parse .expression Limits.standard.maxNesting source).isOk

theorem parse_eq_parsedExpression {source : String}
    (h : (parse .expression Limits.standard.maxNesting source).isOk = true) :
    parse .expression Limits.standard.maxNesting source = .ok (parsedExpression source) := by
  unfold parsedExpression
  cases hparse : parse .expression Limits.standard.maxNesting source with
  | error e =>
    rw [hparse] at h
    cases h
  | ok x => rfl

theorem mapM_eq_ok_map {ε α β : Type} {f : α → Except ε β} {g : α → β} {xs : List α}
    (h : ∀ x ∈ xs, f x = .ok (g x)) : xs.mapM f = .ok (xs.map g) :=
  mapM_eq_ok_iff.2 (List.forall₂_map_right_iff.2 (List.forall₂_same.2 h))

/-- A rule whose texts are expressions is compiled from them. -/
theorem compile_plainRule {name condition : String} {assignments : List (String × String)}
    (h : (plainRule name condition assignments).isReadable = true) :
    (plainRule name condition assignments).toRuleEntry.compile .standard =
      .ok (plainRule name condition assignments) := by
  simp only [RuleEntry.isReadable, List.all_cons, Bool.and_eq_true, List.all_map,
    List.all_eq_true] at h
  obtain ⟨hcondition, hassignments⟩ := h
  have hactions : assignments.mapM (fun a => Action.compile .standard a.1 a.2) =
      .ok (assignments.map fun a => ⟨a.1, a.2, parsedExpression a.2⟩) :=
    mapM_eq_ok_map fun a ha => by
      rw [Action.compile, parse_eq_parsedExpression (hassignments a ha)]
      rfl
  exact bind_eq_ok.2 ⟨_, parse_eq_parsedExpression hcondition, bind_eq_ok.2 ⟨_, hactions, rfl⟩⟩

/-- A rule that assigns `y`, if `x` is true. -/
def assignsY : Rule := plainRule "y" "x" [("y", "x")]

/-- A rule that assigns `z`, and fails at the next assignment. -/
def assignsZ : Rule := plainRule "z" "TRUE" [("z", "x"), ("w", "v")]

/-- A rule that reads what the two others assign. -/
def assignsA : Rule := plainRule "a" "z" [("a", "y")]

/-- A rule whose condition breaks down. -/
def breaksDown : Rule := plainRule "broken" "\"aa\" MATCHES \"a\x7b4294967295\x7d\"" []

/-- The set of some rules as they are given. -/
def givenRules (rules : List Rule) : RuleSet := ⟨rules, .standard, [], ""⟩

theorem isCompiled_givenRules {rules : List Rule}
    (h : ∀ r ∈ rules, r.toRuleEntry.compile .standard = .ok r) : (givenRules rules).IsCompiled :=
  fun r hr => ⟨.standard, r.toRuleEntry, h r hr⟩

theorem ofRules_givenRules {rules : List Rule}
    (hranks : rules.Pairwise fun a b => b.priority.rank ≤ a.priority.rank)
    (hnames : repeatedName? [] (rules.map (·.name)) = none) :
    RuleSet.ofRules rules .standard [] "" = .ok (givenRules rules) := by
  have horder : byPriority rules = rules := List.mergeSort_of_pairwise (by simpa using hranks)
  simp only [RuleSet.ofRules, horder, hnames]
  rfl

/-- Two rules change places that a third one reads from, one of them failing midway. -/
theorem assignments_commute :
    (givenRules [assignsY, assignsZ, assignsA]).IsCompiled ∧ assignsY.Independent assignsZ ∧
      ∃ outcomes outcomes',
        ((givenRules [assignsY, assignsZ, assignsA]).fire false
          ((Context.empty [] ()).withBindings [("x", .boolean true)])).1 = .ok outcomes ∧
        ((givenRules [assignsZ, assignsY, assignsA]).fire false
          ((Context.empty [] ()).withBindings [("x", .boolean true)])).1 = .ok outcomes' ∧
        Exchanged [] assignsY assignsZ [assignsA] outcomes outcomes' := by
  have hcompiled : (givenRules [assignsY, assignsZ, assignsA]).IsCompiled := by
    refine isCompiled_givenRules fun r hr => ?_
    simp only [List.mem_cons, List.not_mem_nil, or_false] at hr
    rcases hr with rfl | rfl | rfl <;> exact compile_plainRule (by decide +kernel)
  have hindependent : assignsY.Independent assignsZ := by decide +kernel
  have hset : RuleSet.ofRules ([] ++ assignsY :: ([] ++ assignsZ :: [assignsA])) .standard [] "" =
      .ok (givenRules [assignsY, assignsZ, assignsA]) :=
    ofRules_givenRules (by decide) (by decide)
  have hset' : RuleSet.ofRules [assignsZ, assignsY, assignsA] .standard [] "" =
      .ok (givenRules [assignsZ, assignsY, assignsA]) :=
    ofRules_givenRules (by decide) (by decide)
  have hpure : Registry.IsPure ([] : Registry Unit) := fun d hd => by cases hd
  have hok : ((givenRules [assignsY, assignsZ, assignsA]).fire false
      ((Context.empty [] ()).withBindings [("x", .boolean true)])).1.isOk = true := by
    decide +kernel
  have horder : (givenRules [assignsY, assignsZ, assignsA]).rules =
      [] ++ assignsY :: assignsZ :: [assignsA] := rfl
  obtain ⟨t, ht, hfire⟩ := independent_rules_commute hset hcompiled horder rfl hindependent
  cases hset'.symm.trans ht
  refine ⟨hcompiled, hindependent, ?_⟩
  rcases hfire ((Context.empty [] ()).withBindings [("x", .boolean true)]) hpure with
    ⟨b, b', hb, -⟩ | ⟨outcomes, outcomes', h, h', hexchanged, -⟩
  · rw [hb] at hok
    cases hok
  · exact ⟨outcomes, outcomes', h, h', hexchanged⟩

/-- Behind a rule that breaks down no other is fired, so that the order tells. -/
theorem breakdown_tells_order :
    (givenRules [breaksDown, assignsY]).IsCompiled ∧ breaksDown.Independent assignsY ∧
      RuleSet.ofRules [breaksDown, assignsY] .standard [] "" =
        .ok (givenRules [breaksDown, assignsY]) ∧
      RuleSet.ofRules [assignsY, breaksDown] .standard [] "" =
        .ok (givenRules [assignsY, breaksDown]) ∧
      ((givenRules [breaksDown, assignsY]).fire false
        ((Context.empty [] ()).withBindings [("x", .boolean true)])).2.bindings.get? "y" = none ∧
      ((givenRules [assignsY, breaksDown]).fire false
        ((Context.empty [] ()).withBindings [("x", .boolean true)])).2.bindings.get? "y" =
          some (.boolean true) := by
  have hcompiled : (givenRules [breaksDown, assignsY]).IsCompiled := by
    refine isCompiled_givenRules fun r hr => ?_
    simp only [List.mem_cons, List.not_mem_nil, or_false] at hr
    rcases hr with rfl | rfl <;> exact compile_plainRule (by decide +kernel)
  exact ⟨hcompiled, by decide +kernel, ofRules_givenRules (by decide) (by decide),
    ofRules_givenRules (by decide) (by decide), by decide +kernel, by decide +kernel⟩

end Rulebook

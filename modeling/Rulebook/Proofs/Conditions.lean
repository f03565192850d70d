/-
  Conditions — deciding them changes nothing.

  * `Context.Kept c d`: the context `d` has the functions, the variables and the
    log of `c`.
  * `Context.evaluate_kept`: evaluating an expression keeps the context, whatever
    comes of it.
  * `Undisturbing step`: a step of firing that leaves the variables and the log
    as they are; checking rules is such a step (`Rule.undisturbing_check`).
  * `Query` lists the ways to ask a rule set which of its rules match, and
    `kept_askAll` is the induction over any number of questions.
  * `conditions_keep_context` joins the two: for the texts that are read as
    expressions, and for compiled rule sets.
-/
import Rulebook.Proofs.Firing

namespace Rulebook

open Eval

variable {ω : Type}

/-! ## Contexts that are kept -/

/-- A context with the functions, the variables and the log of another. -/
structure Context.Kept (c d : Context ω) : Prop where
  functions : d.functions = c.functions
  bindings : d.bindings = c.bindings
  logged : d.journal.logged = c.journal.logged

theorem Context.Kept.refl (c : Context ω) : c.Kept c := ⟨rfl, rfl, rfl⟩

theorem Context.Kept.trans {c d e : Context ω} (h : c.Kept d) (h' : d.Kept e) : c.Kept e :=
  ⟨h'.functions.trans h.functions, h'.bindings.trans h.bindings, h'.logged.trans h.logged⟩

theorem Context.kept_of_sameContext {c : Context ω} {s : Store ω} (h : SameContext c.store s) :
    c.Kept { c with store := s } :=
  ⟨rfl, h.1, h.2⟩

/-- Evaluating an expression keeps the context. -/
theorem Context.evaluate_kept {x : Node} (h : x.isExpression = true) (c : Context ω)
    (limits : Limits) : c.Kept (c.evaluate limits x).2 :=
  kept_of_sameContext (Node.quiet_evaluate ⟨limits, c.functions⟩ h c.store)

/-! ## Steps of firing -/

/-- A step of firing that leaves the variables and the log as they are. -/
def Undisturbing {α : Type} (step : Firing ω α) : Prop :=
  ∀ s, SameContext s (step.run s).2

section
variable {α β : Type}

theorem undisturbing_pure (v : α) : Undisturbing (pure v : Firing ω α) := fun s => .refl s

theorem Undisturbing.bind {step : Firing ω α} {next : α → Firing ω β} (h : Undisturbing step)
    (hnext : ∀ v, Undisturbing (next v)) : Undisturbing (step >>= next) :=
  related_run_bind (R := SameContext) SameContext.trans h hnext

theorem undisturbing_report {n : Notice} (h : Journal.logged [n] = []) :
    Undisturbing (Firing.report n : Firing ω Unit) := by
  intro s
  rw [Rulebook.run_report]
  exact ⟨rfl, logged_append h _⟩

theorem undisturbing_attempt (env : Environment ω) {x : Node} (h : x.isExpression = true) :
    Undisturbing (Firing.attempt env x) := by
  intro s
  rw [attempt_run]
  exact Node.quiet_evaluate env h s

theorem Rule.undisturbing_check (env : Environment ω) {r : Rule}
    (h : r.condition.isExpression = true) : Undisturbing (r.check env) := by
  unfold Rule.check
  refine (undisturbing_attempt env h).bind fun answer => ?_
  cases answer with
  | ok v => exact undisturbing_pure _
  | error e => exact (undisturbing_report rfl).bind fun _ => undisturbing_pure _

variable {rules : List Rule} (h : ∀ r ∈ rules, r.condition.isExpression = true)
include h

theorem undisturbing_checkAll (env : Environment ω) : Undisturbing (checkAll env rules) := by
  induction rules with
  | nil => exact undisturbing_pure _
  | cons r rest ih =>
    have hrest := ih fun r hr => h r (by simp [hr])
    exact (Rule.undisturbing_check env (h r (by simp))).bind fun _ =>
      hrest.bind fun _ => undisturbing_pure _

theorem undisturbing_firstMatching (env : Environment ω) :
    Undisturbing (firstMatching? env rules) := by
  induction rules with
  | nil => exact undisturbing_pure _
  | cons r rest ih =>
    have hrest := ih fun r hr => h r (by simp [hr])
    unfold firstMatching?
    refine (Rule.undisturbing_check env (h r (by simp))).bind fun o => ?_
    split_ifs
    · exact undisturbing_pure _
    · exact hrest

end

/-! ## Asking rule sets -/

/-- Every rule of the set was compiled, under whatever limits. -/
def RuleSet.IsCompiled (s : RuleSet) : Prop :=
  ∀ r ∈ s.rules, ∃ limits e, RuleEntry.compile limits e = .ok r

theorem RuleSet.IsCompiled.isExpression {s : RuleSet} (h : s.IsCompiled) :
    ∀ r ∈ s.rules, r.condition.isExpression = true := by
  intro r hr
  obtain ⟨limits, e, he⟩ := h r hr
  exact RuleEntry.isExpression_of_compile he r.condition (by simp [Rule.expressions])

/-- The ways to ask a rule set which of its rules match. -/
inductive Query where
  | evaluate
  | matching
  | firstMatch
  deriving DecidableEq, Repr

/-- The context in which a question leaves the caller. -/
def RuleSet.ask (s : RuleSet) (c : Context ω) : Query → Context ω
  | .evaluate => (s.evaluate c).2
  | .matching => (s.matching c).2
  | .firstMatch => (s.firstMatch? c).2

/-- Questions one after the other, each to a rule set. -/
def askAll (c : Context ω) (questions : List (RuleSet × Query)) : Context ω :=
  questions.foldl (fun c q => q.1.ask c q.2) c

theorem RuleSet.runIn_kept {α : Type} {s : RuleSet} {c : Context ω}
    {step : Environment ω → List Rule → Firing ω α}
    (h : Undisturbing (step ⟨s.limits, c.functions⟩ s.rules)) : c.Kept (s.runIn c step).2 :=
  Context.kept_of_sameContext (h c.store)

/-- One question keeps the context. -/
theorem RuleSet.ask_kept {s : RuleSet} (h : s.IsCompiled) (c : Context ω) (q : Query) :
    c.Kept (s.ask c q) := by
  cases q with
  | evaluate => exact runIn_kept (undisturbing_checkAll h.isExpression _)
  | matching => exact runIn_kept (undisturbing_checkAll h.isExpression _)
  | firstMatch => exact runIn_kept (undisturbing_firstMatching h.isExpression _)

/-- Any number of questions, in any order, keep the context. -/
theorem kept_askAll {questions : List (RuleSet × Query)} (h : ∀ q ∈ questions, q.1.IsCompiled) :
    ∀ c : Context ω, c.Kept (askAll c questions) := by
  induction questions with
  | nil => exact fun c => .refl c
  | cons q rest ih =>
    intro c
    have hfirst : c.Kept (q.1.ask c q.2) := q.1.ask_kept (h q (by simp)) c q.2
    have hrest := ih fun q hq => h q (by simp [hq])
    exact hfirst.trans (hrest (q.1.ask c q.2))

/-- **Conditions never change the context.** What is read from a text as an
    expression, under any limits, is evaluated under any limits without a change
    of the variables, the log or the functions, whatever comes of it; and so are
    compiled rule sets asked which of their rules match, in any number and order
    of questions. -/
theorem conditions_keep_context :
    (∀ (nesting : ℕ) (source : String) (x : Node), parse .expression nesting source = .ok x →
      ∀ (limits : Limits) (c : Context ω), c.Kept (c.evaluate limits x).2) ∧
    ∀ questions : List (RuleSet × Query), (∀ q ∈ questions, q.1.IsCompiled) →
      ∀ c : Context ω, c.Kept (askAll c questions) :=
  ⟨fun _ _ _ hx limits c => c.evaluate_kept (isExpression_of_parse hx) limits,
    fun _ h c => kept_askAll h c⟩

/-- A rule without assignments, as it is written down. -/
def conditionOnly (name condition : String) : RuleEntry :=
  ⟨name, condition, [], .integer 0, "", []⟩

/-- A rule whose condition fails, and one whose condition looks like an assignment. -/
def failingAndMatching : RuleSet where
  rules := [conditionOnly "failing" "y", conditionOnly "matching" "x = x"].filterMap fun e =>
    (e.compile .standard).toOption
  limits := .standard
  defaults := []
  name := "failing and matching"

/-- Neither a condition that fails nor one with `=` changes a variable. -/
theorem failingAndMatching_kept :
    failingAndMatching.rules.length = 2 ∧ failingAndMatching.IsCompiled ∧
      (∃ x, parse .expression 64 "x = x" = .ok x ∧
        (((Context.empty [] ()).withBindings [("x", .null)]).evaluate .standard x).2.bindings =
          [("x", .null)]) ∧
      (askAll ((Context.empty [] ()).withBindings [("x", .null)])
        [(failingAndMatching, .firstMatch), (failingAndMatching, .matching)]).bindings =
          [("x", .null)] := by
  have hcompiled : failingAndMatching.IsCompiled := by
    intro r hr
    obtain ⟨e, -, hr⟩ := List.mem_filterMap.1 hr
    refine ⟨.standard, e, ?_⟩
    cases hcompile : e.compile .standard with
    | error f => rw [hcompile] at hr; cases hr
    | ok r' => rw [hcompile] at hr; cases hr; rfl
  have hquestions : ∀ q ∈ [(failingAndMatching, Query.firstMatch),
      (failingAndMatching, Query.matching)], q.1.IsCompiled := by
    simp [hcompiled]
  have hok : (parse .expression 64 "x = x").isOk := by decide +kernel
  refine ⟨by decide +kernel, hcompiled, ?_, (conditions_keep_context.2 _ hquestions _).bindings⟩
  cases hparse : parse .expression 64 "x = x" with
  | error e => rw [hparse] at hok; cases hok
  | ok x => exact ⟨x, rfl, (conditions_keep_context.1 64 "x = x" x hparse _ _).bindings⟩

end Rulebook

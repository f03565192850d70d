/-
  Registered — loading rules out calls of functions that are not registered.

  * `ExpressionError.IsUndefinedFunction`: an error for want of a function.
  * `Node.notUndefined_evaluate`: a tree that calls registered functions is evaluated
    without one, unless a function itself fails so.
  * `Gives P step`: what a step of firing gives has the property `P`; the outcomes of
    rules that call registered functions carry no such error.
  * `Use` lists the ways to use a rule set, and `RuleSet.use` what outcomes each comes
    to; `RuleSet.ask_eq` and `RuleSet.firstMatch?_eq` say that nothing is left out.
  * `loaded_calls_registered` follows a file from its text to any number of uses.
-/
import Rulebook.Proofs.Breakdowns
import Rulebook.Proofs.Conditions
import Rulebook.Proofs.Loading

namespace Rulebook

open Eval Firing

variable {ω : Type}

/-! ## Errors for want of a function -/

/-- An error of a call of a function that is not registered. -/
def ExpressionError.IsUndefinedFunction (e : ExpressionError) : Prop :=
  ∃ name, e.cause = .undefinedFunction name

/-- A failure that is no error for want of a function. -/
def Failure.NotUndefined (f : Failure) : Prop := ∀ e, f = .error e → ¬ e.IsUndefinedFunction

/-- A registry whose functions do not themselves fail for want of a function. -/
def Registry.SelfContained (functions : Registry ω) : Prop :=
  ∀ d ∈ functions, ∀ args host, FailsWith Failure.NotUndefined (d.run args host).1

theorem notUndefined_ofCause {cause : Cause} (h : ∀ name, cause ≠ .undefinedFunction name) :
    (Failure.ofCause cause).NotUndefined := by
  rintro e he ⟨name, hname⟩
  cases he
  exact h name hname

theorem Failure.NotUndefined.locatedAt {f : Failure} (h : f.NotUndefined) (p : Option ℕ) :
    (f.locatedAt p).NotUndefined := by
  rintro e he ⟨name, hname⟩
  obtain ⟨e', rfl, hcause⟩ := cause_of_locatedAt he
  exact h e' rfl ⟨name, hcause.symm.trans hname⟩

/-! ## Trees -/

section
variable {functions : Registry ω}

theorem OfOperator.notUndefined {P : Breakdown → Prop} {f : Failure} (h : OfOperator P f) :
    f.NotUndefined := by
  rintro e rfl ⟨name, hname⟩
  have hoperator := h.kind
  rw [hname] at hoperator
  cases hoperator

theorem OfCall.notUndefined (hfunctions : functions.SelfContained) {name : String}
    (hname : functions.has name) {f : Failure} (h : OfCall functions name f) :
    f.NotUndefined := by
  cases h with
  | unknown hlookup =>
    rw [Registry.has, hlookup] at hname
    cases hname
  | refused hkind =>
    refine notUndefined_ofCause fun name h => ?_
    rw [h] at hkind
    rcases hkind with hkind | hkind <;> cases hkind
  | stated hd he => exact hfunctions _ hd _ _ _ he
  | result => exact fun _ he => by cases he

/-- A tree that calls registered functions meets no error for want of one. -/
theorem Node.notUndefined_evaluate {env : Environment ω}
    (hfunctions : env.functions.SelfContained) {x : Node}
    (hx : ∀ name ∈ x.referencedFunctions, env.functions.has name) :
    FailsInto Failure.NotUndefined (x.evaluate env) := by
  have hsteps : Composed fun α => FailsInto (ω := ω) (α := α) Failure.NotUndefined :=
    composed_failsInto (fun p _ h => h.locatedAt p) fun _ h => h.notUndefined
  refine hsteps.evaluateIn (fun name _ => ?_) (fun name hname args => ?_) (.inr fun α => ?_)
  · exact failsInto_variableValue (notUndefined_ofCause (by simp))
  · exact (failsInto_call name args).mono fun _ h => h.notUndefined hfunctions (hx name hname)
  · exact failsInto_ofAnswer (failsWith_error (notUndefined_ofCause (by simp)))

end

/-! ## Steps of firing -/

section
variable {α β : Type} {P : α → Prop} {Q : β → Prop}

/-- What a step of firing gives has a property. -/
def Gives (P : α → Prop) (step : Firing ω α) : Prop := ∀ s v, (step.run s).1 = .ok v → P v

theorem gives_pure {v : α} (h : P v) : Gives P (pure v : Firing ω α) := by
  intro s w hw
  cases hw
  exact h

theorem gives_any (step : Firing ω α) : Gives (fun _ => True) step := fun _ _ _ => trivial

theorem Gives.bind {step : Firing ω α} {next : α → Firing ω β} (h : Gives P step)
    (hnext : ∀ v, P v → Gives Q (next v)) : Gives Q (step >>= next) := by
  intro s w hw
  rw [run_bind] at hw
  rcases hrun : step.run s with ⟨b | v, t⟩
  · rw [hrun] at hw
    cases hw
  · rw [hrun] at hw
    exact hnext v (h s v (congrArg Prod.fst hrun)) t w hw

end

/-! ## Rules -/

/-- An outcome without an error for want of a function. -/
def Outcome.NotUndefined (o : Outcome) : Prop :=
  ∀ e, o.error = some e → ¬ e.IsUndefinedFunction

theorem Outcome.notUndefined_of_none {o : Outcome} (h : o.error = none) : o.NotUndefined := by
  intro e he
  cases h.symm.trans he

theorem Outcome.notUndefined_of_error {o : Outcome} {e : ExpressionError} (h : o.error = some e)
    (he : ¬ e.IsUndefinedFunction) : o.NotUndefined := by
  intro e' he'
  cases h.symm.trans he'
  exact he

/-- The functions that a rule calls are registered. -/
def Rule.CallsIn (functions : Registry ω) (r : Rule) : Prop :=
  ∀ name ∈ r.referencedFunctions, functions.has name

theorem Rule.CallsIn.expression {functions : Registry ω} {r : Rule} (h : r.CallsIn functions)
    {x : Node} (hx : x ∈ r.expressions) : ∀ name ∈ x.referencedFunctions, functions.has name :=
  fun name hname => h name (List.mem_flatMap.2 ⟨x, hx, hname⟩)

/-- Checks rules one after the other, up to the first that matches. -/
def checkUntilMatch (env : Environment ω) : List Rule → Firing ω (List Outcome)
  | [] => return []
  | r :: rest => do
    let outcome ← r.check env
    if outcome.matched then return [outcome]
    else return outcome :: (← checkUntilMatch env rest)

/-- The first rule that matches is the one at which checking stops. -/
theorem firstMatching?_eq (env : Environment ω) (rules : List Rule) :
    firstMatching? env rules = (do
      let outcomes ← checkUntilMatch env rules
      return (outcomes.find? (·.matched)).map (·.rule)) := by
  induction rules with
  | nil => rfl
  | cons r rest ih =>
    unfold firstMatching? checkUntilMatch Rule.check
    simp only [bind_assoc]
    congr 1
    funext answer
    cases answer with
    | error e => simp [ih]
    | ok v => cases hv : v.truthy <;> simp [hv, ih]

section
variable {env : Environment ω} (hfunctions : env.functions.SelfContained)
include hfunctions

/-- An attempt at an expression of a rule gives no error for want of a function. -/
theorem gives_attempt {r : Rule} (h : r.CallsIn env.functions) {x : Node}
    (hx : x ∈ r.expressions) :
    Gives (fun answer => ∀ e, answer = .error e → ¬ e.IsUndefinedFunction) (attempt env x) := by
  rintro s answer hanswer e rfl
  have hfails := Node.notUndefined_evaluate hfunctions (h.expression hx) s
  rw [attempt_run] at hanswer
  rcases hrun : ((x.evaluate env).run s).1 with (e' | b) | v <;>
    rw [hrun] at hanswer <;> cases hanswer
  exact hfails _ hrun e rfl

theorem Rule.gives_check {r : Rule} (h : r.CallsIn env.functions) :
    Gives Outcome.NotUndefined (r.check env) := by
  unfold check
  refine (gives_attempt hfunctions h List.mem_cons_self).bind fun answer hanswer => ?_
  cases answer with
  | ok v => exact gives_pure (Outcome.notUndefined_of_none rfl)
  | error e =>
    have houtcome := hanswer e rfl
    exact (gives_any _).bind fun _ _ => gives_pure (Outcome.notUndefined_of_error rfl houtcome)

theorem Rule.gives_carryOut {r : Rule} (h : r.CallsIn env.functions) {actions : List Action}
    (hactions : ∀ a ∈ actions, a ∈ r.actions) :
    ∀ assigned, Gives Outcome.NotUndefined (r.carryOut env actions assigned) := by
  induction actions with
  | nil =>
    intro assigned
    exact (gives_any _).bind fun _ _ => gives_pure (Outcome.notUndefined_of_none rfl)
  | cons a rest ih =>
    intro assigned
    have hx : a.expression ∈ r.expressions :=
      List.mem_cons_of_mem _ (List.mem_map.2 ⟨a, hactions a (by simp), rfl⟩)
    unfold carryOut
    refine (gives_attempt hfunctions h hx).bind fun answer hanswer => ?_
    cases answer with
    | ok v => exact (gives_any _).bind fun _ _ => ih (fun a ha => hactions a (by simp [ha])) _
    | error e =>
      have houtcome := hanswer e rfl
      exact (gives_any _).bind fun _ _ => gives_pure (Outcome.notUndefined_of_error rfl houtcome)

theorem Rule.gives_fire {r : Rule} (h : r.CallsIn env.functions) :
    Gives Outcome.NotUndefined (r.fire env) := by
  unfold fire
  refine (Rule.gives_check hfunctions h).bind fun o ho => ?_
  split_ifs
  · exact Rule.gives_carryOut hfunctions h (fun a ha => ha) _
  · exact gives_pure ho

variable {rules : List Rule} (h : ∀ r ∈ rules, r.CallsIn env.functions)
include h

theorem gives_checkAll : Gives (∀ o ∈ ·, o.NotUndefined) (checkAll env rules) := by
  induction rules with
  | nil => exact gives_pure (by simp)
  | cons r rest ih =>
    have hrest := ih fun r hr => h r (by simp [hr])
    refine (Rule.gives_check hfunctions (h r (by simp))).bind fun o ho => ?_
    exact hrest.bind fun os hos => gives_pure (List.forall_mem_cons.2 ⟨ho, hos⟩)

theorem gives_checkUntilMatch : Gives (∀ o ∈ ·, o.NotUndefined) (checkUntilMatch env rules) := by
  induction rules with
  | nil => exact gives_pure (by simp)
  | cons r rest ih =>
    have hrest := ih fun r hr => h r (by simp [hr])
    unfold checkUntilMatch
    refine (Rule.gives_check hfunctions (h r (by simp))).bind fun o ho => ?_
    split_ifs
    · exact gives_pure (by simpa using ho)
    · exact hrest.bind fun os hos => gives_pure (List.forall_mem_cons.2 ⟨ho, hos⟩)

theorem gives_fireAll (stopOnFirst : Bool) :
    Gives (∀ o ∈ ·, o.NotUndefined) (fireAll env stopOnFirst rules) := by
  induction rules with
  | nil => exact gives_pure (by simp)
  | cons r rest ih =>
    have hrest := ih fun r hr => h r (by simp [hr])
    unfold fireAll
    refine (Rule.gives_fire hfunctions (h r (by simp))).bind fun o ho => ?_
    split_ifs
    · exact gives_pure (by simpa using ho)
    · exact hrest.bind fun os hos => gives_pure (List.forall_mem_cons.2 ⟨ho, hos⟩)

end

/-! ## Uses of rule sets -/

/-- The ways to use a rule set. -/
inductive Use where
  | ask (q : Query)
  | fire (stopOnFirst : Bool)
  deriving DecidableEq, Repr

/-- The outcomes that a use comes to. -/
def Use.outcomes (u : Use) (env : Environment ω) (rules : List Rule) : Firing ω (List Outcome) :=
  match u with
  | ask .evaluate | ask .matching => checkAll env rules
  | ask .firstMatch => checkUntilMatch env rules
  | fire stopOnFirst => fireAll env stopOnFirst rules

/-- Uses a rule set in a context. -/
def RuleSet.use (s : RuleSet) (c : Context ω) (u : Use) :
    Except Breakdown (List Outcome) × Context ω :=
  s.runIn c u.outcomes

theorem RuleSet.firstMatch?_eq (s : RuleSet) (c : Context ω) :
    s.firstMatch? c = ((s.use c (.ask .firstMatch)).1.map fun outcomes =>
      (outcomes.find? (·.matched)).map (·.rule), (s.use c (.ask .firstMatch)).2) := by
  unfold firstMatch? use runIn Use.outcomes
  simp only [firstMatching?_eq, run_bind]
  rcases (checkUntilMatch ⟨s.limits, c.functions⟩ s.rules).run c.store with ⟨b | outcomes, t⟩ <;>
    rfl

theorem RuleSet.ask_eq (s : RuleSet) (c : Context ω) (q : Query) :
    s.ask c q = (s.use c (.ask q)).2 := by
  cases q with
  | evaluate | matching => rfl
  | firstMatch => rw [ask, firstMatch?_eq]

/-- The outcomes of uses one after the other. -/
def RuleSet.outcomesOf (s : RuleSet) : Context ω → List Use → List Outcome
  | _, [] => []
  | c, u :: rest => (s.use c u).1.toOption.getD [] ++ outcomesOf s (s.use c u).2 rest

theorem Use.gives_outcomes {env : Environment ω} (hfunctions : env.functions.SelfContained)
    {rules : List Rule} (h : ∀ r ∈ rules, r.CallsIn env.functions) (u : Use) :
    Gives (∀ o ∈ ·, o.NotUndefined) (u.outcomes env rules) := by
  rcases u with (_ | _ | _) | stopOnFirst
  · exact gives_checkAll hfunctions h
  · exact gives_checkAll hfunctions h
  · exact gives_checkUntilMatch hfunctions h
  · exact gives_fireAll hfunctions h stopOnFirst

/-- Any number of uses, in any order. -/
theorem RuleSet.notUndefined_outcomesOf {s : RuleSet} {uses : List Use} :
    ∀ {c : Context ω}, c.functions.SelfContained → (∀ r ∈ s.rules, r.CallsIn c.functions) →
      ∀ o ∈ s.outcomesOf c uses, o.NotUndefined := by
  induction uses with
  | nil => simp [outcomesOf]
  | cons u rest ih =>
    intro c hfunctions h o ho
    rcases List.mem_append.1 ho with ho | ho
    · cases hanswer : (s.use c u).1 with
      | error b =>
        rw [hanswer] at ho
        cases ho
      | ok outcomes =>
        rw [hanswer] at ho
        exact u.gives_outcomes hfunctions h c.store outcomes hanswer o ho
    · -- A use keeps the functions of the context.
      exact ih (c := (s.use c u).2) hfunctions h o ho

/-! ## Files -/

/-- The rules of a file call known functions only. -/
theorem RuleFile.callsKnown_of_load {file : String} {known : String → Bool} {source : Source}
    {s : RuleSet} (h : load file known source = .ok s) :
    ∀ r ∈ s.rules, ∀ name ∈ r.referencedFunctions, known name := by
  obtain ⟨d, -, h⟩ := bind_eq_ok.1 h
  have hloads := ofDocument_loads (normalPath file) known d
  cases hdocument : ofDocument (normalPath file) known d with
  | error f =>
    rw [hdocument] at h
    cases h
  | ok s' =>
    rw [hdocument] at h hloads
    cases h
    cases hloads with
    | made _ hcompiles hissues hrules =>
      intro r hr
      rw [hrules, byPriority, List.mem_mergeSort] at hr
      exact hcompiles.callsKnown hissues r hr

/-- **Loading rules out calls of functions that are not registered.** Where a file is
    loaded, and a registry has every function known then and none that itself fails for
    want of a function, no use of the rules, in any number and order of uses and with
    whatever variables, has an outcome with an error for want of a function. The uses are
    all the questions that a rule set is asked, and its firing. -/
theorem loaded_calls_registered {file : String} {known : String → Bool} {source : RuleFile.Source}
    {s : RuleSet} (h : RuleFile.load file known source = .ok s) {c : Context ω}
    (hknown : ∀ name, known name → c.functions.has name)
    (hfunctions : c.functions.SelfContained) (uses : List Use) :
    (∀ o ∈ s.outcomesOf c uses, ∀ e, o.error = some e →
      ∀ name, e.cause ≠ .undefinedFunction name) ∧
    (∀ (c' : Context ω) (q : Query), s.ask c' q = (s.use c' (.ask q)).2) ∧
    ∀ (c' : Context ω) (stopOnFirst : Bool),
      s.fire stopOnFirst c' = s.use c' (.fire stopOnFirst) := by
  refine ⟨fun o ho e he name hname => ?_, s.ask_eq, fun _ _ => rfl⟩
  have hcalls : ∀ r ∈ s.rules, r.CallsIn c.functions := fun r hr name hname =>
    hknown name (RuleFile.callsKnown_of_load h r hr name hname)
  exact RuleSet.notUndefined_outcomesOf hfunctions hcalls o ho e he ⟨name, hname⟩

/-- A file with a rule that calls a function in what it assigns, and fails there. -/
def callsOne : RuleFile.Source := .document <| .mapping [(.text "rules", .list [.mapping [
  (.text "name", .text "count"),
  (.text "when", .text "TRUE"),
  (.text "set", .mapping [(.text "x", .text "one() + y")])]])]

/-- The rule has an outcome when asked for and one when fired, neither with an error for
    want of the function. -/
theorem callsOne_registered :
    ∃ s, RuleFile.load "rules.yaml" (· == "one") callsOne = .ok s ∧
      (s.outcomesOf (.empty [constantInteger "one" 1] ()) [.ask .firstMatch, .fire false]).length =
        2 ∧
      ∀ o ∈ s.outcomesOf (.empty [constantInteger "one" 1] ()) [.ask .firstMatch, .fire false],
        ∀ e, o.error = some e → ∀ name, e.cause ≠ .undefinedFunction name := by
  have hlength : (RuleFile.load "rules.yaml" (· == "one") callsOne).toOption.map (fun s =>
      (s.outcomesOf (.empty [constantInteger "one" 1] ()) [.ask .firstMatch, .fire false]).length) =
        some 2 := by decide +kernel
  cases hload : RuleFile.load "rules.yaml" (· == "one") callsOne with
  | error f =>
    rw [hload] at hlength
    cases hlength
  | ok s =>
    rw [hload] at hlength
    refine ⟨s, rfl, Option.some.inj hlength, (loaded_calls_registered hload ?_ ?_ _).1⟩
    · rintro name hname
      obtain rfl := eq_of_beq hname
      rfl
    · rintro d hd args host f hf
      obtain rfl := List.mem_singleton.1 hd
      cases hf

end Rulebook

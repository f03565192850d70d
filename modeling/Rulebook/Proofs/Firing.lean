/-
  Firing — what a rule set changes, and what it tells of it.

  * `Arises env rules start s`: the firing of the rules from `start` can come to
    `s`; that evaluation meets errors only is asked of these stores.
  * `Rule.Fired`: what the firing of one rule does, and `Rule.fire_fired`, that it
    does it.
  * `Accounts`: outcomes that account for a firing; `fireAll_accounts` is the
    induction over the rules.
  * `RuleSet.fire_accounts`: the outcomes of a firing account for it.
-/
import Rulebook.Proofs.Steps
import Rulebook.Proofs.Overlay
import Rulebook.Proofs.Acceptance
import Rulebook.RuleSet.Firing

namespace Rulebook

open Eval Firing

variable {ω : Type}

/-! ## Compiled rules -/

theorem mem_of_mapM_eq_ok {ε α β : Type} {f : α → Except ε β} {xs : List α} {ys : List β}
    (h : xs.mapM f = .ok ys) : ∀ y ∈ ys, ∃ x ∈ xs, f x = .ok y := by
  have hall := mapM_eq_ok_iff.1 h
  clear h
  induction hall with
  | nil => nofun
  | cons hx _ ih =>
    intro y hy
    rcases List.mem_cons.1 hy with rfl | hy
    · exact ⟨_, by simp, hx⟩
    · obtain ⟨x, hmem, hx⟩ := ih y hy
      exact ⟨x, by simp [hmem], hx⟩

/-- A rule that was compiled holds expressions only. -/
theorem RuleEntry.isExpression_of_compile {limits : Limits} {e : RuleEntry} {r : Rule}
    (h : e.compile limits = .ok r) : ∀ x ∈ r.expressions, x.isExpression = true := by
  obtain ⟨condition, hc, h⟩ := bind_eq_ok.1 h
  obtain ⟨actions, ha, h⟩ := bind_eq_ok.1 h
  cases h
  intro x hx
  rcases List.mem_cons.1 hx with rfl | hx
  · exact isExpression_of_parse hc
  · obtain ⟨a, hmem, rfl⟩ := List.mem_map.1 hx
    obtain ⟨p, -, hp⟩ := mem_of_mapM_eq_ok ha a hmem
    obtain ⟨y, hy, hp⟩ := bind_eq_ok.1 hp
    cases hp
    exact isExpression_of_parse hy

/-! ## Evaluating in the course of firing -/

/-- The stores to which the firing of rules can come: from the first one by
    evaluating their expressions, by assigning what these give, and by reports. -/
inductive Arises (env : Environment ω) (rules : List Rule) (start : Store ω) : Store ω → Prop
  | start : Arises env rules start start
  | evaluated {s r x} : Arises env rules start s → r ∈ rules → x ∈ r.expressions →
      Arises env rules start ((x.evaluate env).run s).2
  | assigned {s r a v t} : Arises env rules start s → r ∈ rules → a ∈ r.actions →
      (a.expression.evaluate env).run s = (.ok v, t) →
      Arises env rules start { t with bindings := t.bindings.set a.target v }
  | reported {s} (n : Notice) : Arises env rules start s →
      Arises env rules start { s with journal := s.journal ++ [n] }

/-- Wherever firing comes, evaluation fails with errors only. -/
def FailsWithErrorsOnly (env : Environment ω) (rules : List Rule) (start : Store ω) : Prop :=
  ∀ s, Arises env rules start s → ∀ r ∈ rules, ∀ x ∈ r.expressions, ∀ b,
    ((x.evaluate env).run s).1 ≠ .error (.breakdown b)

/-- What an attempt makes of an answer. -/
def attempted : Except Failure Value → Except Breakdown (Except ExpressionError Value)
  | .ok v => .ok (.ok v)
  | .error (.error e) => .ok (.error e)
  | .error (.breakdown b) => .error b

theorem attempt_run (env : Environment ω) (x : Node) (s : Store ω) :
    (attempt env x).run s =
      (attempted ((x.evaluate env).run s).1, ((x.evaluate env).run s).2) := by
  unfold attempt
  simp only [ExceptT.run_mk, bind, StateT.bind]
  rcases (x.evaluate env).run s with ⟨(_ | _) | _, t⟩ <;> rfl

theorem run_attempt {env : Environment ω} {x : Node} {s : Store ω}
    (h : ∀ b, ((x.evaluate env).run s).1 ≠ .error (.breakdown b)) :
    ∃ answer t, (x.evaluate env).run s = (answer.mapError .error, t) ∧
      (attempt env x).run s = (.ok answer, t) := by
  rw [attempt_run]
  rcases hx : (x.evaluate env).run s with ⟨(e | b) | v, t⟩
  · exact ⟨.error e, t, rfl, rfl⟩
  · exact absurd (congrArg Prod.fst hx) (h b)
  · exact ⟨.ok v, t, rfl, rfl⟩

theorem run_report (n : Notice) (s : Store ω) :
    (Firing.report n).run s = (.ok (), { s with journal := s.journal ++ [n] }) := rfl

/-- A notice that is no line of the log. -/
theorem logged_append {n : Notice} (h : Journal.logged [n] = []) (j : Journal) :
    Journal.logged (j ++ [n]) = j.logged := by
  rw [Journal.logged] at h
  rw [Journal.logged, Journal.logged, List.filterMap_append, h, List.append_nil]

/-! ## One rule -/

/-- The outcome tells how the condition of its rule is decided in a store. -/
def Outcome.DecidedIn (env : Environment ω) (s : Store ω) (o : Outcome) : Prop :=
  match ((o.rule.condition.evaluate env).run s).1 with
  | .ok v => o.matched = v.truthy
  | .error (.error e) => o.matched = false ∧ o.error = some e
  | .error (.breakdown _) => False

theorem Outcome.decidedIn_of_ok {env : Environment ω} {s : Store ω} {o : Outcome} {v : Value}
    (h : ((o.rule.condition.evaluate env).run s).1 = .ok v) (hm : o.matched = v.truthy) :
    o.DecidedIn env s := by
  rw [DecidedIn, h]
  exact hm

theorem Outcome.decidedIn_of_error {env : Environment ω} {s : Store ω} {o : Outcome}
    {e : ExpressionError} (h : ((o.rule.condition.evaluate env).run s).1 = .error (.error e))
    (hm : o.matched = false) (he : o.error = some e) : o.DecidedIn env s := by
  rw [DecidedIn, h]
  exact ⟨hm, he⟩

/-- What the firing of one rule does. -/
structure Rule.Fired (env : Environment ω) (r : Rule) (s : Store ω) (o : Outcome) (t : Store ω) :
    Prop where
  rule : o.rule = r
  assigned : o.assigned ≠ [] → o.matched = true
  decided : o.DecidedIn env s
  bindings : t.bindings = s.bindings.setAll o.assigned
  logged : t.journal.logged = s.journal.logged

section
variable {env : Environment ω} {rules : List Rule} {start : Store ω}
  (hexp : ∀ r ∈ rules, ∀ x ∈ r.expressions, x.isExpression = true)
  (herr : FailsWithErrorsOnly env rules start) {r : Rule} (hr : r ∈ rules)
include hexp herr hr

/-- Assignments are carried out up to an error, and what they bound is what the
    outcome tells, laid over what was bound before all of them. -/
theorem run_carryOut : ∀ {actions : List Action}, (∀ a ∈ actions, a ∈ r.actions) →
    ∀ {assigned : Bindings} {s : Store ω}, (keys assigned).Nodup → Arises env rules start s →
      ∃ o t, (r.carryOut env actions assigned).run s = (.ok o, t) ∧ o.rule = r ∧
        o.matched = true ∧ Arises env rules start t ∧ t.journal.logged = s.journal.logged ∧
        ∀ b : Bindings, s.bindings = b.setAll assigned → t.bindings = b.setAll o.assigned := by
  intro actions
  induction actions with
  | nil =>
    intro _ assigned s _ hs
    unfold Rule.carryOut
    rw [run_bind, run_report]
    exact ⟨_, _, rfl, rfl, rfl, hs.reported _, logged_append rfl _, fun _ hb => hb⟩
  | cons a actions ih =>
    intro hmem assigned s hnodup hs
    have ha : a ∈ r.actions := hmem a (by simp)
    have hx : a.expression ∈ r.expressions := List.mem_cons_of_mem _ (List.mem_map.2 ⟨a, ha, rfl⟩)
    obtain ⟨answer, t, heval, hrun⟩ := run_attempt (herr s hs r hr _ hx)
    have hquiet : SameContext s t := by
      have := Node.quiet_evaluate env (hexp r hr _ hx) s
      rwa [heval] at this
    unfold Rule.carryOut
    rw [run_bind, hrun]
    cases answer with
    | ok v =>
      have ht := hs.assigned hr ha heval
      have hnodup' : (keys (assigned.set a.target v)).Nodup := nodup_keys_put hnodup _ _
      obtain ⟨o, u, hu, hrule, hmatched, harises, hlogged, hbindings⟩ :=
        ih (fun a ha => hmem a (by simp [ha])) hnodup' ht
      refine ⟨o, u, hu, hrule, hmatched, harises, hlogged.trans hquiet.2, fun b hb => ?_⟩
      refine hbindings b ?_
      show t.bindings.set a.target v = b.setAll (assigned.set a.target v)
      rw [hquiet.1, hb]
      exact (putAll_put b hnodup a.target v).symm
    | error e =>
      have ht : Arises env rules start t := by
        have := hs.evaluated hr hx
        rwa [heval] at this
      refine ⟨_, _, rfl, rfl, rfl, ht.reported _, ?_, fun b hb => ?_⟩
      · exact (logged_append rfl _).trans hquiet.2
      · exact hquiet.1.trans hb

end

/-- The outcome that an answer of the condition gives, and the store after it. -/
def Rule.checked (r : Rule) (t : Store ω) : Except ExpressionError Value → Outcome × Store ω
  | .ok v => (⟨r, v.truthy, [], none⟩, t)
  | .error e => (⟨r, false, [], some e⟩,
      { t with journal := t.journal ++ [.ruleFailed r.name e.text] })

theorem Rule.run_check {env : Environment ω} {r : Rule} {s t : Store ω}
    {answer : Except ExpressionError Value}
    (h : (attempt env r.condition).run s = (.ok answer, t)) :
    (r.check env).run s = (.ok (r.checked t answer).1, (r.checked t answer).2) := by
  unfold Rule.check
  rw [run_bind, h]
  cases answer <;> rfl

theorem Rule.run_fire {env : Environment ω} {r : Rule} {s t : Store ω} {o : Outcome}
    (h : (r.check env).run s = (.ok o, t)) :
    (r.fire env).run s =
      if o.matched then (r.carryOut env r.actions []).run t else (.ok o, t) := by
  unfold Rule.fire
  rw [run_bind, h]
  show (if o.matched then r.carryOut env r.actions [] else pure o).run t = _
  split_ifs <;> rfl

/-- **The firing of a rule does what its outcome tells.** -/
theorem Rule.fire_fired {env : Environment ω} {rules : List Rule} {start : Store ω}
    (hexp : ∀ r ∈ rules, ∀ x ∈ r.expressions, x.isExpression = true)
    (herr : FailsWithErrorsOnly env rules start) {r : Rule} (hr : r ∈ rules) {s : Store ω}
    (hs : Arises env rules start s) :
    ∃ o t, (r.fire env).run s = (.ok o, t) ∧ r.Fired env s o t ∧ Arises env rules start t := by
  have hx : r.condition ∈ r.expressions := List.mem_cons_self
  obtain ⟨answer, t, heval, hrun⟩ := run_attempt (herr s hs r hr _ hx)
  have hquiet : SameContext s t := by
    have := Node.quiet_evaluate env (hexp r hr _ hx) s
    rwa [heval] at this
  have ht : Arises env rules start t := by
    have := hs.evaluated hr hx
    rwa [heval] at this
  have hcheck := Rule.run_check hrun
  cases answer with
  | ok v =>
    have hv : ((r.condition.evaluate env).run s).1 = .ok v := congrArg Prod.fst heval
    rw [Rule.run_fire hcheck]
    by_cases htrue : v.truthy = true
    · have hnodup : (keys ([] : Bindings)).Nodup := List.nodup_nil
      obtain ⟨o, u, hu, hrule, hmatched, harises, hlogged, hbindings⟩ :=
        run_carryOut hexp herr hr (fun a ha => ha) hnodup ht
      refine ⟨o, u, (if_pos htrue).trans hu, ⟨hrule, fun _ => hmatched, ?_,
        hbindings s.bindings hquiet.1, hlogged.trans hquiet.2⟩, harises⟩
      exact Outcome.decidedIn_of_ok (hrule.symm ▸ hv) (hmatched.trans htrue.symm)
    · refine ⟨_, _, if_neg htrue, ⟨rfl, fun h => absurd rfl h, ?_, hquiet.1, hquiet.2⟩, ht⟩
      exact Outcome.decidedIn_of_ok hv rfl
  | error e =>
    have he : ((r.condition.evaluate env).run s).1 = .error (.error e) := congrArg Prod.fst heval
    rw [Rule.run_fire hcheck]
    refine ⟨_, _, rfl, ⟨rfl, fun h => absurd rfl h, ?_, hquiet.1, ?_⟩, ht.reported _⟩
    · exact Outcome.decidedIn_of_error he rfl rfl
    · exact (logged_append rfl _).trans hquiet.2

/-! ## Several rules -/

/-- Variables with what outcomes assigned laid over them, in order. -/
def overlay (b : Bindings) (outcomes : List Outcome) : Bindings :=
  outcomes.foldl (fun b o => b.setAll o.assigned) b

/-- The outcomes account for the firing of rules from `s` to `t`. -/
structure Accounts (env : Environment ω) (stopOnFirst : Bool) (rules : List Rule) (s : Store ω)
    (outcomes : List Outcome) (t : Store ω) : Prop where
  /-- There is one outcome for each rule, in order, up to where firing stops. -/
  initial : outcomes.map (·.rule) <+: rules
  /-- Firing stops early only where asked, behind a rule that matches. -/
  complete : outcomes.map (·.rule) = rules ∨
    stopOnFirst = true ∧ ∃ o, outcomes.getLast? = some o ∧ o.matched = true
  assigned : ∀ o ∈ outcomes, o.assigned ≠ [] → o.matched = true
  /-- Each condition is decided in the store left by the outcomes before it. -/
  decided : ∀ i (hi : i < outcomes.length), ∃ u,
    (fireAll env stopOnFirst (rules.take i)).run s = (.ok (outcomes.take i), u) ∧
      u.bindings = overlay s.bindings (outcomes.take i) ∧ outcomes[i].DecidedIn env u
  bindings : t.bindings = overlay s.bindings outcomes
  logged : t.journal.logged = s.journal.logged

theorem run_fireAll_stop {env : Environment ω} {stopOnFirst : Bool} {r : Rule} {s t : Store ω}
    {o : Outcome} (h : (r.fire env).run s = (.ok o, t)) (hstop : (o.matched && stopOnFirst) = true)
    (rest : List Rule) :
    (fireAll env stopOnFirst (r :: rest)).run s = (.ok [o], t) := by
  unfold fireAll
  rw [run_bind, h]
  show (if o.matched && stopOnFirst then _ else _ : Firing ω (List Outcome)).run t = _
  rw [if_pos hstop]
  rfl

theorem run_fireAll_go {env : Environment ω} {stopOnFirst : Bool} {r : Rule} {s t u : Store ω}
    {o : Outcome} {rest : List Rule} {outcomes : List Outcome}
    (h : (r.fire env).run s = (.ok o, t)) (hgo : ¬ (o.matched && stopOnFirst) = true)
    (hrest : (fireAll env stopOnFirst rest).run t = (.ok outcomes, u)) :
    (fireAll env stopOnFirst (r :: rest)).run s = (.ok (o :: outcomes), u) := by
  unfold fireAll
  rw [run_bind, h]
  show (if o.matched && stopOnFirst then _ else _ : Firing ω (List Outcome)).run t = _
  rw [if_neg hgo, run_bind, hrest]
  rfl

section
variable {env : Environment ω} {stopOnFirst : Bool} {r : Rule} {rest : List Rule} {s t u : Store ω}
  {o : Outcome} {outcomes : List Outcome}

theorem accounts_nil (env : Environment ω) (stopOnFirst : Bool) (s : Store ω) :
    Accounts env stopOnFirst [] s [] s where
  initial := List.prefix_rfl
  complete := .inl rfl
  assigned _ ho := by cases ho
  decided _ hi := absurd hi (Nat.not_lt_zero _)
  bindings := rfl
  logged := rfl

/-- The first condition is decided where firing begins. -/
theorem Rule.Fired.decided_zero (h : r.Fired env s o t) :
    ∃ u, (fireAll env stopOnFirst ([] : List Rule)).run s = (.ok [], u) ∧
      u.bindings = overlay s.bindings [] ∧ o.DecidedIn env u :=
  ⟨s, rfl, rfl, h.decided⟩

theorem Rule.Fired.accounts_stop (h : r.Fired env s o t)
    (hstop : (o.matched && stopOnFirst) = true) :
    Accounts env stopOnFirst (r :: rest) s [o] t where
  initial := ⟨rest, by simp [h.rule]⟩
  complete := .inr ⟨(Bool.and_eq_true _ _ ▸ hstop).2, o, rfl, (Bool.and_eq_true _ _ ▸ hstop).1⟩
  assigned o' ho' := by
    obtain rfl := List.mem_singleton.1 ho'
    exact h.assigned
  decided i hi := by
    obtain rfl : i = 0 := Nat.lt_one_iff.1 hi
    exact h.decided_zero
  bindings := h.bindings
  logged := h.logged

theorem Rule.Fired.accounts_go (h : r.Fired env s o t) (hrun : (r.fire env).run s = (.ok o, t))
    (hgo : ¬ (o.matched && stopOnFirst) = true)
    (hrest : Accounts env stopOnFirst rest t outcomes u) :
    Accounts env stopOnFirst (r :: rest) s (o :: outcomes) u where
  initial := by
    rw [List.map_cons, h.rule]
    exact List.prefix_cons_inj r |>.2 hrest.initial
  complete := by
    rcases hrest.complete with hall | ⟨hstop, o', ho', hmatched⟩
    · exact .inl (by rw [List.map_cons, h.rule, hall])
    · refine .inr ⟨hstop, o', ?_, hmatched⟩
      rw [List.getLast?_cons, ho']
      rfl
  assigned o' ho' := by
    rcases List.mem_cons.1 ho' with rfl | ho'
    exacts [h.assigned, hrest.assigned o' ho']
  decided i hi := by
    cases i with
    | zero => exact h.decided_zero
    | succ i =>
      obtain ⟨v, hv, hbindings, hdecided⟩ := hrest.decided i (Nat.lt_of_succ_lt_succ hi)
      refine ⟨v, run_fireAll_go hrun hgo hv, ?_, hdecided⟩
      rw [hbindings, h.bindings]
      rfl
  bindings := by
    rw [hrest.bindings, h.bindings]
    rfl
  logged := hrest.logged.trans h.logged

end

/-- Firing some of the rules, from wherever firing comes. -/
theorem fireAll_accounts {env : Environment ω} {all : List Rule} {start : Store ω}
    (hexp : ∀ r ∈ all, ∀ x ∈ r.expressions, x.isExpression = true)
    (herr : FailsWithErrorsOnly env all start) (stopOnFirst : Bool) {rules : List Rule}
    (hall : ∀ r ∈ rules, r ∈ all) : ∀ {s : Store ω}, Arises env all start s →
      ∃ outcomes t, (fireAll env stopOnFirst rules).run s = (.ok outcomes, t) ∧
        Accounts env stopOnFirst rules s outcomes t := by
  induction rules with
  | nil => exact fun {s} _ => ⟨[], s, rfl, accounts_nil env stopOnFirst s⟩
  | cons r rest ih =>
    intro s hs
    obtain ⟨o, t, hrun, hfired, ht⟩ := Rule.fire_fired hexp herr (hall r (by simp)) hs
    by_cases hstop : (o.matched && stopOnFirst) = true
    · exact ⟨[o], t, run_fireAll_stop hrun hstop rest, hfired.accounts_stop hstop⟩
    · obtain ⟨outcomes, u, hrest, haccounts⟩ := ih (fun r hr => hall r (by simp [hr])) ht
      exact ⟨o :: outcomes, u, run_fireAll_go hrun hstop hrest,
        hfired.accounts_go hrun hstop haccounts⟩

/-! ## Rule sets -/

/-- **Firing accounts for what it changes.** Where evaluation fails with errors
    only, the compiled rules of a set are fired to the end, and the outcomes
    account for the variables that are reached. -/
theorem RuleSet.fire_accounts (s : RuleSet)
    (hcompiled : ∀ r ∈ s.rules, ∃ limits e, RuleEntry.compile limits e = .ok r) (c : Context ω)
    (herr : FailsWithErrorsOnly ⟨s.limits, c.functions⟩ s.rules c.store) (stopOnFirst : Bool) :
    ∃ outcomes after, s.fire stopOnFirst c = (.ok outcomes, after) ∧
      (stopOnFirst = false → outcomes.map (·.rule) = s.rules) ∧
      Accounts ⟨s.limits, c.functions⟩ stopOnFirst s.rules c.store outcomes after.store := by
  have hexp : ∀ r ∈ s.rules, ∀ x ∈ r.expressions, x.isExpression = true := by
    intro r hr
    obtain ⟨limits, e, he⟩ := hcompiled r hr
    exact RuleEntry.isExpression_of_compile he
  obtain ⟨outcomes, t, hrun, haccounts⟩ :=
    fireAll_accounts hexp herr stopOnFirst (fun r hr => hr) .start
  refine ⟨outcomes, { c with store := t }, ?_, ?_, haccounts⟩
  · unfold RuleSet.fire RuleSet.runIn
    rw [hrun]
  · rintro rfl
    exact haccounts.complete.resolve_right (fun h => absurd h.1 (by simp))

/-- A rule whose second assignment fails, and one that reads what the first bound. -/
def halfCarriedOut : RuleSet where
  rules := [
    { name := "half", when := "TRUE", assignments := [("x", "TRUE"), ("y", "z")],
      priority := .integer 1, description := "", tags := [],
      condition := .literal (.boolean true) (some 0),
      actions := [⟨"x", "TRUE", .literal (.boolean true) (some 0)⟩,
        ⟨"y", "z", .reference "z" (some 0)⟩] },
    { name := "next", when := "x", assignments := [], priority := .integer 0,
      description := "", tags := [], condition := .reference "x" (some 0), actions := [] }]
  limits := .standard
  defaults := []
  name := "half carried out"

/-- What is bound before an assignment fails is accounted for. -/
theorem fire_halfCarriedOut :
    (∀ r ∈ halfCarriedOut.rules, ∃ limits e, RuleEntry.compile limits e = .ok r) ∧
      FailsWithErrorsOnly ⟨halfCarriedOut.limits, []⟩ halfCarriedOut.rules ⟨[], [], ()⟩ ∧
      ∃ outcomes after, halfCarriedOut.fire false (.empty [] ()) = (.ok outcomes, after) ∧
        outcomes.map (·.rule) = halfCarriedOut.rules ∧
        after.bindings = overlay [] outcomes := by
  have hcompiled : ∀ r ∈ halfCarriedOut.rules, ∃ limits e, RuleEntry.compile limits e = .ok r := by
    intro r hr
    refine ⟨.standard, r.toRuleEntry, ?_⟩
    simp only [halfCarriedOut, List.mem_cons, List.not_mem_nil, or_false] at hr
    rcases hr with rfl | rfl <;> with_unfolding_all rfl
  have herr : FailsWithErrorsOnly ⟨halfCarriedOut.limits, []⟩ halfCarriedOut.rules
      ⟨[], [], ()⟩ := by
    intro s _ r hr x hx b
    have hreference : ∀ name, (((Node.reference name (some 0)).evaluate
        (⟨halfCarriedOut.limits, []⟩ : Environment Unit)).run s).1 ≠ .error (.breakdown b) := by
      intro name
      show ((located (some 0) (variableValue name)).run s).1 ≠ _
      rw [run_located, run_variableValue]
      cases s.bindings.get? name <;> simp [Except.mapError, Failure.locatedAt, Failure.ofCause]
    simp only [halfCarriedOut, List.mem_cons, List.not_mem_nil, or_false] at hr
    rcases hr with rfl | rfl
    · simp only [Rule.expressions, List.map_cons, List.map_nil, List.mem_cons, List.not_mem_nil,
        or_false] at hx
      rcases hx with rfl | rfl | rfl
      exacts [nofun, nofun, hreference "z"]
    · simp only [Rule.expressions, List.map_nil, List.mem_cons, List.not_mem_nil, or_false] at hx
      subst hx
      exact hreference "x"
  obtain ⟨outcomes, after, hrun, hrules, haccounts⟩ :=
    halfCarriedOut.fire_accounts hcompiled (.empty [] ()) herr false
  exact ⟨hcompiled, herr, outcomes, after, hrun, hrules rfl, haccounts.bindings⟩

end Rulebook

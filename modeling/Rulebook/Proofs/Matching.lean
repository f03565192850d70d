/-
  Matching — the ways to find out which rules of a set match, and to fire them, agree.

  * `Rule.check_ends`: where evaluation meets errors only, a condition is decided, and
    the variables stay as they are; `Rule.fire_of_matched`: what the firing of a rule
    does from there.
  * `Agreement`: what the outcomes of all conditions, the first rule that matches, the
    firing of all rules and the firing up to the first match have to do with each other.
  * `Agreement.unmatched_cons`, `agreement_matched`: a rule that does not match leaves all
    four where they were, and a rule that matches ends the search and the shorter
    firing; `run_agrees` is the induction over the rules.
  * `RuleSet.matchings_agree`: the four agree for a rule set.
-/
import Rulebook.Proofs.Independence

namespace Rulebook

open Eval Firing

variable {ω : Type}

/-! ## One rule -/

section
variable {env : Environment ω} {rules : List Rule} {start : Store ω}
  (hexp : ∀ r ∈ rules, ∀ x ∈ r.expressions, x.isExpression = true)
  (herr : FailsWithErrorsOnly env rules start) {r : Rule} (hr : r ∈ rules)
include hexp herr hr

/-- A condition is decided, and the variables stay as they are. -/
theorem Rule.check_ends {s : Store ω} (hs : Arises env rules start s) :
    ∃ o t, (r.check env).run s = (.ok o, t) ∧ o.rule = r ∧ t.bindings = s.bindings ∧
      Arises env rules start t := by
  have hx : r.condition ∈ r.expressions := List.mem_cons_self
  obtain ⟨answer, t, heval, hrun⟩ := run_attempt (herr s hs r hr _ hx)
  have hkept : t.bindings = s.bindings := by
    have hquiet := Node.quiet_evaluate env (hexp r hr _ hx) s
    rw [heval] at hquiet
    exact hquiet.1
  have ht : Arises env rules start t := by
    have harises := hs.evaluated hr hx
    rwa [heval] at harises
  have hcheck := Rule.run_check hrun
  cases answer with
  | ok v => exact ⟨_, _, hcheck, rfl, hkept, ht⟩
  | error e => exact ⟨_, _, hcheck, rfl, hkept, ht.reported _⟩

/-- A rule whose condition holds is carried out, as far as there is no error, and binds
    nothing but its targets. -/
theorem Rule.fire_of_matched (hpure : env.functions.IsPure) {s t : Store ω} {o : Outcome}
    (hrun : (r.check env).run s = (.ok o, t)) (ho : o.matched = true)
    (ht : Arises env rules start t) :
    ∃ o' u, (r.fire env).run s = (.ok o', u) ∧ o'.rule = r ∧ o'.matched = true ∧
      Arises env rules start u ∧
      ∀ name ∉ r.targets, u.bindings.get? name = t.bindings.get? name := by
  have hnodup : (keys ([] : Bindings)).Nodup := List.nodup_nil
  obtain ⟨o', u, hu, hrule, hmatched, harises, -⟩ :=
    run_carryOut hexp herr hr (fun _ ha => ha) hnodup ht
  have hkeeps := (Rule.confined_carryOut hpure (hexp r hr) (E := r.Escapes env)
    (fun _ hb => hb) (fun _ ha => ha) []).keeps t
  rw [hu] at hkeeps
  exact ⟨o', u, by rw [Rule.run_fire hrun, if_pos ho, hu], hrule, hmatched, harises, hkeeps⟩

end

/-! ## Agreement -/

/-- The outcomes of all conditions of some rules (`checked`), the first rule that matches,
    the outcomes of firing them all, and of firing up to the first match, all from the
    variables `before`, where the shorter firing leads to the variables `after`. -/
structure Agreement (rules : List Rule) (before : Bindings) (checked : List Outcome)
    (first : Option Rule) (fired stopped : List Outcome) (after : Bindings) : Prop where
  inOrder : checked.map (·.rule) = rules
  isFirst : first = ((checked.filter (·.matched)).map (·.rule)).head?
  /-- Firing up to the first match is the beginning of firing all rules. -/
  initial : stopped <+: fired
  unmatched : ∀ o ∈ stopped.dropLast, o.matched = false
  decided : stopped.dropLast <+: checked
  /-- The first match ends the shorter firing, and nothing but its targets is bound. -/
  last : ∀ r, first = some r → ∃ o, stopped.getLast? = some o ∧ o.rule = r ∧
    o.matched = true ∧ ∀ name ∉ r.targets, after.get? name = before.get? name
  /-- Without a match, firing is deciding all conditions. -/
  never : first = none → stopped = checked ∧ after = before

section
variable {rest : List Rule} {before after : Bindings} {checked fired stopped : List Outcome}
  {first : Option Rule} {o o' : Outcome}

theorem agreement_nil (b : Bindings) : Agreement [] b [] none [] [] b where
  inOrder := rfl
  isFirst := rfl
  initial := List.prefix_rfl
  unmatched _ ho := by cases ho
  decided := List.prefix_rfl
  last _ hr := by cases hr
  never _ := ⟨rfl, rfl⟩

/-- A rule that does not match, before others. -/
theorem Agreement.unmatched_cons (h : Agreement rest before checked first fired stopped after)
    (ho : o.matched = false) :
    Agreement (o.rule :: rest) before (o :: checked) first (o :: fired) (o :: stopped) after where
  inOrder := by rw [List.map_cons, h.inOrder]
  isFirst := by rw [List.filter_cons_of_neg (by simp [ho]), h.isFirst]
  initial := List.prefix_cons_inj o |>.2 h.initial
  unmatched := by
    cases stopped with
    | nil => simp
    | cons p stopped => simpa [ho] using h.unmatched
  decided := by
    cases stopped with
    | nil => exact List.nil_prefix
    | cons p stopped => exact List.prefix_cons_inj o |>.2 h.decided
  last r hr := by
    obtain ⟨p, hp, hlast⟩ := h.last r hr
    exact ⟨p, by rw [List.getLast?_cons, hp]; rfl, hlast⟩
  never hnone := by
    obtain ⟨hstopped, hafter⟩ := h.never hnone
    exact ⟨by rw [hstopped], hafter⟩

/-- A rule that matches, before others. -/
theorem agreement_matched {r : Rule} (hchecked : checked.map (·.rule) = rest) (ho : o.rule = r)
    (hmatched : o.matched = true) (ho' : o'.rule = r) (hmatched' : o'.matched = true)
    (hkeeps : ∀ name ∉ r.targets, after.get? name = before.get? name) :
    Agreement (r :: rest) before (o :: checked) (some r) (o' :: fired) [o'] after where
  inOrder := by rw [List.map_cons, ho, hchecked]
  isFirst := by rw [List.filter_cons_of_pos hmatched, List.map_cons, ho, List.head?_cons]
  initial := ⟨fired, rfl⟩
  unmatched _ hp := by cases hp
  decided := List.nil_prefix
  last _ hr := by
    cases hr
    exact ⟨o', rfl, ho', hmatched', hkeeps⟩
  never hnone := by cases hnone

end

/-! ## Several rules -/

section
variable {env : Environment ω} {r : Rule} {rest : List Rule} {s t u : Store ω} {o : Outcome}

theorem run_checkAll_cons {outcomes : List Outcome} (h : (r.check env).run s = (.ok o, t))
    (hrest : (checkAll env rest).run t = (.ok outcomes, u)) :
    (checkAll env (r :: rest)).run s = (.ok (o :: outcomes), u) := by
  unfold checkAll
  rw [run_bind, h]
  simp only [run_bind, hrest]
  rfl

theorem run_firstMatching?_cons (h : (r.check env).run s = (.ok o, t)) (rest : List Rule) :
    (firstMatching? env (r :: rest)).run s =
      if o.matched then (.ok (some r), t) else (firstMatching? env rest).run t := by
  rw [firstMatching?, run_bind, h]
  dsimp only
  split_ifs <;> rfl

end

/-- From wherever firing comes, the ways to ask some of the rules and to fire them agree. -/
theorem run_agrees {env : Environment ω} {all : List Rule} {start : Store ω}
    (hexp : ∀ r ∈ all, ∀ x ∈ r.expressions, x.isExpression = true)
    (herr : FailsWithErrorsOnly env all start) (hpure : env.functions.IsPure) {rules : List Rule}
    (hall : ∀ r ∈ rules, r ∈ all) : ∀ {s : Store ω}, Arises env all start s →
      ∃ checked first fired stopped t u v w,
        (checkAll env rules).run s = (.ok checked, t) ∧
        (firstMatching? env rules).run s = (.ok first, u) ∧
        (fireAll env false rules).run s = (.ok fired, v) ∧
        (fireAll env true rules).run s = (.ok stopped, w) ∧
        Agreement rules s.bindings checked first fired stopped w.bindings := by
  induction rules with
  | nil =>
    intro s _
    exact ⟨[], none, [], [], s, s, s, s, rfl, rfl, rfl, rfl, agreement_nil s.bindings⟩
  | cons r rest ih =>
    intro s hs
    have hr : r ∈ all := hall r (by simp)
    replace ih := @ih fun r hr => hall r (by simp [hr])
    obtain ⟨o, t, hcheck, ho, hkept, ht⟩ := Rule.check_ends hexp herr hr hs
    obtain ⟨checked, first, fired, stopped, t', u, v, w, hchecked, hfirst, hfired, hstopped,
      hagree⟩ := ih ht
    have hchecked' := run_checkAll_cons hcheck hchecked
    have hfirst' := run_firstMatching?_cons hcheck rest
    cases hmatched : o.matched with
    | false =>
      -- nothing is bound, so that everything goes on from the same store
      have hfire : (r.fire env).run s = (.ok o, t) := by
        rw [Rule.run_fire hcheck, hmatched]
        rfl
      rw [hmatched, if_neg (by simp), hfirst] at hfirst'
      rw [← ho, ← hkept]
      rw [← ho] at hchecked' hfirst' hfire
      refine ⟨_, _, _, _, _, _, _, _, hchecked', hfirst', run_fireAll_go hfire (by simp) hfired,
        run_fireAll_go hfire (by simp [hmatched]) hstopped, hagree.unmatched_cons hmatched⟩
    | true =>
      obtain ⟨o', t'', hfire, ho', hmatched', ht'', hkeeps⟩ :=
        Rule.fire_of_matched hexp herr hr hpure hcheck hmatched ht
      -- only the rest of the longer firing goes on behind the assignments
      obtain ⟨-, -, fired', -, -, -, v', -, -, -, hfired', -⟩ := ih ht''
      rw [hmatched, if_pos rfl] at hfirst'
      rw [hkept] at hkeeps
      exact ⟨_, _, _, _, _, _, _, _, hchecked', hfirst', run_fireAll_go hfire (by simp) hfired',
        run_fireAll_stop hfire (by simp [hmatched']) rest,
        agreement_matched hagree.inOrder ho hmatched ho' hmatched' hkeeps⟩

/-! ## Rule sets -/

/-- **The ways of matching a rule set agree.** Where evaluation fails with errors only, all
    four come to an end; the first match is the first of the rules that match, and firing up
    to it is the beginning of firing all rules: outcomes of conditions that do not hold, as
    they are decided without firing, and then the outcome of the first match, beyond whose
    targets nothing is bound. -/
theorem RuleSet.matchings_agree (s : RuleSet) (hcompiled : s.IsCompiled) (c : Context ω)
    (hpure : c.functions.IsPure)
    (herr : FailsWithErrorsOnly ⟨s.limits, c.functions⟩ s.rules c.store) :
    ∃ checked matching fired stopped after,
      (s.evaluate c).1 = .ok checked ∧ (s.matching c).1 = .ok matching ∧
      matching = (checked.filter (·.matched)).map (·.rule) ∧
      (s.firstMatch? c).1 = .ok matching.head? ∧ (s.fire false c).1 = .ok fired ∧
      s.fire true c = (.ok stopped, after) ∧
      Agreement s.rules c.bindings checked matching.head? fired stopped after.bindings := by
  have hexp : ∀ r ∈ s.rules, ∀ x ∈ r.expressions, x.isExpression = true := by
    intro r hr
    obtain ⟨limits, e, he⟩ := hcompiled r hr
    exact RuleEntry.isExpression_of_compile he
  obtain ⟨checked, first, fired, stopped, t, u, v, w, hchecked, hfirst, hfired, hstopped,
    hagree⟩ := run_agrees hexp herr hpure (fun r hr => hr) .start
  have hevaluate : s.evaluate c = (.ok checked, { c with store := t }) := by
    unfold evaluate runIn
    rw [hchecked]
  rw [hagree.isFirst] at hfirst hagree
  refine ⟨checked, _, fired, stopped, { c with store := w }, ?_, ?_, rfl, ?_, ?_, ?_, hagree⟩
  · rw [hevaluate]
  · unfold matching
    rw [hevaluate]
    rfl
  · unfold firstMatch? runIn
    rw [hfirst]
  · unfold fire runIn
    rw [hfired]
  · unfold fire runIn
    rw [hstopped]

/-- Literals and variables fail with errors only. -/
theorem failsWithErrorsOnly_of_plain {env : Environment ω} {rules : List Rule} {start : Store ω}
    (hroom : 0 < env.limits.maxDepth) (h : ∀ r ∈ rules, ∀ x ∈ r.expressions,
      (∃ v p, x = .literal v p) ∨ ∃ name p, x = .reference name p) :
    FailsWithErrorsOnly env rules start := by
  intro s _ r hr x hx b
  obtain ⟨room, hroom⟩ := Nat.exists_eq_succ_of_ne_zero (Nat.ne_of_gt hroom)
  rw [Node.evaluate, hroom]
  rcases h r hr x hx with ⟨v, p, rfl⟩ | ⟨name, p, rfl⟩
  · rw [Node.run_literal]
    simp
  · rw [Node.run_reference, run_located, run_variableValue]
    cases s.bindings.get? name <;> simp [Except.mapError, Failure.locatedAt, Failure.ofCause]

/-- A rule whose condition fails, one whose second assignment fails, and one that would
    match behind it. -/
def stoppedHalfway : RuleSet where
  rules := [
    { name := "failing", when := "y", assignments := [], priority := .integer 2,
      description := "", tags := [], condition := .reference "y" (some 0), actions := [] },
    { name := "half", when := "TRUE", assignments := [("x", "TRUE"), ("z", "y")],
      priority := .integer 1, description := "", tags := [],
      condition := .literal (.boolean true) (some 0),
      actions := [⟨"x", "TRUE", .literal (.boolean true) (some 0)⟩,
        ⟨"z", "y", .reference "y" (some 0)⟩] },
    { name := "later", when := "x", assignments := [], priority := .integer 0,
      description := "", tags := [], condition := .reference "x" (some 0), actions := [] }]
  limits := .standard
  defaults := []
  name := "stopped halfway"

/-- The failing rule is passed over, and the one that is carried out halfway ends the
    shorter firing. -/
theorem stoppedHalfway_agree :
    stoppedHalfway.IsCompiled ∧ Registry.IsPure ([] : Registry Unit) ∧
      FailsWithErrorsOnly ⟨stoppedHalfway.limits, []⟩ stoppedHalfway.rules ⟨[], [], ()⟩ ∧
      ∃ checked first fired stopped after,
        stoppedHalfway.fire true (.empty [] ()) = (.ok stopped, after) ∧
        checked.map (·.matched) = [false, true, false] ∧ first.map (·.name) = some "half" ∧
        stopped.map (·.matched) = [false, true] ∧
        Agreement stoppedHalfway.rules [] checked first fired stopped after.bindings := by
  have hcompiled : stoppedHalfway.IsCompiled := by
    intro r hr
    refine ⟨.standard, r.toRuleEntry, ?_⟩
    simp only [stoppedHalfway, List.mem_cons, List.not_mem_nil, or_false] at hr
    rcases hr with rfl | rfl | rfl <;> with_unfolding_all rfl
  have hpure : Registry.IsPure ([] : Registry Unit) := by
    intro d hd
    cases hd
  have herr : FailsWithErrorsOnly ⟨stoppedHalfway.limits, []⟩ stoppedHalfway.rules
      ⟨[], [], ()⟩ := by
    refine failsWithErrorsOnly_of_plain (by decide) fun r hr x hx => ?_
    simp only [stoppedHalfway, List.mem_cons, List.not_mem_nil, or_false] at hr
    rcases hr with rfl | rfl | rfl <;>
      simp only [Rule.expressions, List.map_cons, List.map_nil, List.mem_cons, List.not_mem_nil,
        or_false] at hx
    · exact .inr ⟨_, _, hx⟩
    · rcases hx with hx | hx | hx
      exacts [.inl ⟨_, _, hx⟩, .inl ⟨_, _, hx⟩, .inr ⟨_, _, hx⟩]
    · exact .inr ⟨_, _, hx⟩
  obtain ⟨checked, matching, fired, stopped, after, hchecked, -, -, hfirst, -, hstopped, hagree⟩ :=
    stoppedHalfway.matchings_agree hcompiled (.empty [] ()) hpure herr
  have hall : (stoppedHalfway.evaluate (Context.empty [] ())).1.toOption.map
      (·.map (·.matched)) = some [false, true, false] := by decide +kernel
  have hhalf : (stoppedHalfway.firstMatch? (Context.empty [] ())).1.toOption.map
      (·.map (·.name)) = some (some "half") := by decide +kernel
  have hstop : (stoppedHalfway.fire true (Context.empty [] ())).1.toOption.map
      (·.map (·.matched)) = some [false, true] := by decide +kernel
  rw [hchecked] at hall
  rw [hfirst] at hhalf
  rw [hstopped] at hstop
  exact ⟨hcompiled, hpure, herr, checked, matching.head?, fired, stopped, after, hstopped,
    Option.some.inj hall, Option.some.inj hhalf, Option.some.inj hstop, hagree⟩

end Rulebook

/-
  Loadable — which rule files become rule sets, and what their rules are.

  * `Compilable limits known source`: the text is an expression that calls known functions
    only; `RuleEntry.problems_eq_nil_iff` and `RuleFile.issuesOf_eq_nil_iff` say that entries
    of such texts, with names of their own, have no problems.
  * `RuleFile.IsRuleOf limits item r`: the rule is the one that an item of a document
    stands for, with its expressions read; `Compiles.rules` finds one for each item.
  * `RuleFile.load_exactly`: a document whose values are representable becomes a rule set
    exactly where its names are different and its texts are compilable, and then it has the
    rules of its items in order.
-/
import Rulebook.Proofs.Problems

namespace Rulebook

/-! ## Compilable texts -/

/-- A text is an expression, and calls known functions only. -/
def Compilable (limits : Limits) (known : String → Bool) (source : String) : Prop :=
  ∃ x, parse .expression limits.maxNesting source = .ok x ∧
    ∀ name ∈ x.referencedFunctions, known name

instance (limits : Limits) (known : String → Bool) : DecidablePred (Compilable limits known) :=
  fun source => match h : parse .expression limits.maxNesting source with
    | .ok x => decidable_of_iff (∀ name ∈ x.referencedFunctions, known name)
      (by simp [Compilable, h])
    | .error _ => isFalse (by simp [Compilable, h])

/-- A value to assign has a source, which is compilable. -/
def Assignable (limits : Limits) (known : String → Bool) (d : Data) : Prop :=
  ∃ source, RuleFile.sourceOf d = .ok source ∧ Compilable limits known source

instance (limits : Limits) (known : String → Bool) : DecidablePred (Assignable limits known) :=
  fun d => match h : RuleFile.sourceOf d with
    | .ok source => decidable_of_iff (Compilable limits known source) (by simp [Assignable, h])
    | .error _ => isFalse (by simp [Assignable, h])

section
variable {limits : Limits} {known : String → Bool} {e : RuleEntry}

/-- An entry has no problems where its name is its own and all its texts are compilable. -/
theorem RuleEntry.problems_eq_nil_iff {isRepeated : Bool} :
    e.problems limits known isRepeated = [] ↔
      isRepeated = false ∧ ∀ source ∈ e.sources, Compilable limits known source := by
  have hproblems : e.problems limits known isRepeated = [] ↔
      isRepeated = false ∧ e.errors limits = [] ∧ e.unknownFunctions limits known = [] := by
    unfold problems
    cases isRepeated <;> simp
  rw [hproblems]
  refine and_congr_right fun _ => ?_
  rw [List.eq_nil_iff_forall_not_mem, List.eq_nil_iff_forall_not_mem]
  constructor
  · rintro ⟨herrors, hunknown⟩ source hsource
    cases hparse : parse .expression limits.maxNesting source with
    | error x => exact absurd (mem_errors.2 ⟨source, hsource, hparse⟩) (herrors x)
    | ok x =>
      refine ⟨x, hparse, fun name hname => ?_⟩
      by_contra hknown
      exact hunknown name (mem_unknownFunctions.2
        ⟨⟨source, hsource, x, hparse, hname⟩, Bool.not_eq_true _ ▸ hknown⟩)
  · intro h
    constructor
    · intro x hx
      obtain ⟨source, hsource, herror⟩ := mem_errors.1 hx
      obtain ⟨y, hy, -⟩ := h source hsource
      cases hy.symm.trans herror
    · intro name hname
      obtain ⟨⟨source, hsource, x, hx, hcalled⟩, hunknown⟩ := mem_unknownFunctions.1 hname
      obtain ⟨y, hy, hknown⟩ := h source hsource
      cases hy.symm.trans hx
      exact absurd (hknown name hcalled) (by simp [hunknown])

end

/-- Names are all different where none is among those before it. -/
theorem nodup_iff_not_mem_take {names : List String} :
    names.Nodup ↔ ∀ i name, names[i]? = some name → name ∉ names.take i := by
  rw [List.Nodup, List.pairwise_iff_getElem]
  constructor
  · intro h i name hi hmem
    obtain ⟨hlt, rfl⟩ := List.getElem?_eq_some_iff.1 hi
    obtain ⟨j, hj, heq⟩ := List.mem_take_iff_getElem.1 hmem
    exact h j i (by omega) hlt (by omega) heq
  · intro h i j hi hj hlt heq
    exact h j _ (List.getElem?_eq_getElem hj)
      (List.mem_take_iff_getElem.2 ⟨i, by omega, heq⟩)

namespace RuleFile

variable {file : String} {limits : Limits} {known : String → Bool} {seen : List String}
  {items : List Data} {item : Data} {entries : List RuleEntry} {e : RuleEntry}

/-- Nothing is told of entries exactly where their names are different and their texts are
    compilable. -/
theorem issuesOf_eq_nil_iff : issuesOf file limits known entries = [] ↔
    (entries.map (·.name)).Nodup ∧
      ∀ e ∈ entries, ∀ source ∈ e.sources, Compilable limits known source := by
  have hissues : issuesOf file limits known entries = [] ↔
      ∀ i e, entries[i]? = some e → problemsAt limits known entries i e = [] := by
    rw [issuesOf, List.flatMap_eq_nil_iff]
    constructor
    · intro h i e hi
      have hmem : (e, i) ∈ entries.zipIdx := List.mk_mem_zipIdx_iff_getElem?.2 hi
      exact told_eq_nil_iff.1 (List.map_eq_nil_iff.1 (h _ hmem))
    · rintro h ⟨e, i⟩ hmem
      have hi : entries[i]? = some e := List.mk_mem_zipIdx_iff_getElem?.1 hmem
      exact List.map_eq_nil_iff.2 (told_eq_nil_iff.2 (h i e hi))
  have hnew : ∀ i (e : RuleEntry), ((entries.take i).map (·.name)).contains e.name = false ↔
      e.name ∉ (entries.map (·.name)).take i := by
    intro i e
    rw [← Bool.not_eq_true, List.contains_iff_mem, List.map_take]
  rw [hissues, nodup_iff_not_mem_take]
  simp only [problemsAt, RuleEntry.problems_eq_nil_iff, hnew]
  constructor
  · refine fun h => ⟨fun i name hi => ?_, fun e he => ?_⟩
    · rw [List.getElem?_map, Option.map_eq_some_iff] at hi
      obtain ⟨e, hi, rfl⟩ := hi
      exact (h i e hi).1
    · obtain ⟨i, hi⟩ := List.mem_iff_getElem?.1 he
      exact (h i e hi).2
  · rintro ⟨hnames, htexts⟩ i e hi
    refine ⟨hnames i e.name ?_, htexts e (List.mem_of_getElem? hi)⟩
    rw [List.getElem?_map, hi]
    rfl

/-! ## The rule of an item -/

theorem forall₂_comp {α β γ : Type} {R : α → β → Prop} {S : β → γ → Prop} {T : α → γ → Prop}
    (h : ∀ x y z, R x y → S y z → T x z) {xs : List α} {ys : List β} {zs : List γ}
    (hxy : List.Forall₂ R xs ys) (hyz : List.Forall₂ S ys zs) : List.Forall₂ T xs zs := by
  induction hxy generalizing zs with
  | nil =>
    cases hyz
    exact .nil
  | cons hx _ ih =>
    cases hyz with
    | cons hy hrest => exact .cons (h _ _ _ hx hy) (ih hrest)

/-- What an entry of a mapping becomes as an action. -/
structure IsActionOf (limits : Limits) (a : String × Data) (action : Action) : Prop where
  target : action.target = a.1
  source : sourceOf a.2 = .ok action.source
  expression : parse .expression limits.maxNesting action.source = .ok action.expression

/-- The rule is the one of an item: what the item says, with the expressions read. -/
structure IsRuleOf (limits : Limits) (item : Data) (r : Rule) : Prop where
  name : r.name = textField "name" item
  when : r.when = textField "when" item
  condition : parse .expression limits.maxNesting r.when = .ok r.condition
  actions : List.Forall₂ (IsActionOf limits) (entriesOf (item.field? "set")) r.actions
  priority : r.priority = priorityOf (item.field? "priority")
  description : r.description = textField "description" item
  tags : r.tags = (itemsOf (item.field? "tags")).filterMap (·.text?)

/-- What an entry assigns, as text. -/
def IsAssignmentOf (a : String × Data) (assignment : String × String) : Prop :=
  assignment.1 = a.1 ∧ sourceOf a.2 = .ok assignment.2

theorem assignments_of_entry (h : entry item = .ok e) :
    List.Forall₂ IsAssignmentOf (entriesOf (item.field? "set")) e.assignments := by
  obtain ⟨assignments, hassignments, h⟩ := bind_eq_ok.1 h
  cases h
  refine (mapM_eq_ok_iff.1 hassignments).imp fun a assignment h => ?_
  obtain ⟨source, hsource, h⟩ := bind_eq_ok.1 h
  cases h
  exact ⟨rfl, hsource⟩

theorem isRuleOf_of_compile {r : Rule} (hentry : entry item = .ok e)
    (hr : e.compile limits = .ok r) : IsRuleOf limits item r := by
  have hassignments := assignments_of_entry hentry
  obtain ⟨assignments, -, h⟩ := bind_eq_ok.1 hentry
  cases h
  obtain ⟨condition, hcondition, h⟩ := bind_eq_ok.1 hr
  obtain ⟨actions, hactions, h⟩ := bind_eq_ok.1 h
  cases h
  refine ⟨rfl, rfl, hcondition, ?_, rfl, rfl, rfl⟩
  refine forall₂_comp (fun a assignment action ha h => ?_) hassignments (mapM_eq_ok_iff.1 hactions)
  obtain ⟨x, hx, h⟩ := bind_eq_ok.1 h
  cases h
  exact ⟨ha.1, ha.2, hx⟩

/-- The texts of an entry are those of its item. -/
theorem compilable_entry_iff (hentry : entry item = .ok e) :
    (∀ source ∈ e.sources, Compilable limits known source) ↔
      Compilable limits known (textField "when" item) ∧
        ∀ a ∈ entriesOf (item.field? "set"), Assignable limits known a.2 := by
  have hwhen : e.when = textField "when" item := by
    obtain ⟨assignments, -, h⟩ := bind_eq_ok.1 hentry
    cases h
    rfl
  rw [RuleEntry.sources, List.forall_mem_cons, hwhen]
  refine and_congr_right fun _ => ?_
  have hassignments := assignments_of_entry hentry
  generalize entriesOf (item.field? "set") = given at hassignments ⊢
  generalize e.assignments = assignments at hassignments ⊢
  induction hassignments with
  | nil => simp
  | cons h _ ih =>
    rw [List.map_cons, List.forall_mem_cons, List.forall_mem_cons]
    refine and_congr ?_ ih
    rw [Assignable, h.2]
    simp

/-- The names of entries are those of their items. -/
theorem names_of_entries (h : AreReadAs items entries) :
    entries.map (·.name) = items.map (textField "name") := by
  induction h with
  | nil => rfl
  | cons hentry _ ih => rw [List.map_cons, List.map_cons, ih, name_of_entry_eq_ok hentry]

/-- The texts of entries are those of their items. -/
theorem compilable_entries_iff (h : AreReadAs items entries) :
    (∀ e ∈ entries, ∀ source ∈ e.sources, Compilable limits known source) ↔
      ∀ item ∈ items, Compilable limits known (textField "when" item) ∧
        ∀ a ∈ entriesOf (item.field? "set"), Assignable limits known a.2 := by
  induction h with
  | nil => simp
  | cons hentry _ ih =>
    rw [List.forall_mem_cons, List.forall_mem_cons]
    exact and_congr (compilable_entry_iff hentry) ih

/-! ## The rules of a file -/

/-- Where nothing is told, each item has its rule. -/
theorem Compiles.rules {compiled : Compiled} (h : Compiles limits known seen items compiled)
    (hnone : compiled.issues = []) : List.Forall₂ (IsRuleOf limits) items compiled.rules := by
  induction h with
  | nil => exact .nil
  | repeated issue hseen _ ih => cases hnone
  | @entry seen item rest others e told hseen hentry _ ih =>
    rw [List.append_eq_nil_iff, List.map_eq_nil_iff, compileEntry_eq] at hnone
    obtain ⟨htold, hothers⟩ := hnone
    have hproblems := told_eq_nil_iff.1 (List.map_eq_nil_iff.1 htold)
    rcases e.compile_cases limits with ⟨r, hr, -⟩ | ⟨x, more, -, herrors⟩
    · rw [compileEntry_eq, hr]
      exact .cons (isRuleOf_of_compile hentry hr) (ih hothers)
    · rw [RuleEntry.problems, herrors] at hproblems
      cases hproblems

/-- What a document went through that became a rule set. -/
theorem compiled_of_ofDocument {d : Data} {s : RuleSet} (h : ofDocument file known d = .ok s) :
    ∃ compiled, layout.Accepts (withoutDates d) ∧ limitsOf (withoutDates d) = .ok s.limits ∧
      Compiles s.limits known [] (itemsOf ((withoutDates d).field? "rules")) compiled ∧
      compiled.issues = [] ∧ s.rules = byPriority compiled.rules := by
  have haccepts : layout.Accepts (withoutDates d) := by
    have hloads := ofDocument_loads file known d
    rw [h] at hloads
    cases hloads with
    | made hlayout _ _ _ => exact layoutIssues_eq_nil_iff.1 hlayout
  rcases limitsOf_cases haccepts with ⟨limits, hlimits, -⟩ | ⟨_, _, hx, -⟩
  · cases hcompiled : compileEntries file limits known [] 0
        (itemsOf ((withoutDates d).field? "rules")) with
    | error f => cases (ofDocument_of_unread haccepts hlimits hcompiled).symm.trans h
    | ok compiled =>
      obtain ⟨hsome, hnone⟩ := ofDocument_of_compiled haccepts hlimits hcompiled
      have hissues : compiled.issues = [] := by
        by_contra hne
        cases (hsome hne).symm.trans h
      rw [hnone hissues] at h
      cases hvalues : valuesOf (entriesOf ((withoutDates d).field? "variables")) with
      | error f =>
        rw [hvalues] at h
        cases h
      | ok values =>
        rw [hvalues] at h
        cases h
        exact ⟨compiled, haccepts, hlimits, compiles_of_ok hcompiled, hissues, rfl⟩
  · obtain ⟨_, _, herror⟩ := ofDocument_of_setting haccepts hx
    cases herror.symm.trans h

/-- What a file went through that became a rule set: each item of its document has its rule,
    and the rules stand in order. -/
theorem rules_of_load {source : Source} {s : RuleSet} (h : load file known source = .ok s) :
    ∃ d rules, source.document? (normalPath file) = .ok d ∧
      limitsOf (withoutDates d) = .ok s.limits ∧
      List.Forall₂ (IsRuleOf s.limits) (itemsOf ((withoutDates d).field? "rules")) rules ∧
      InOrder rules s.rules := by
  obtain ⟨d, hdocument, h⟩ := bind_eq_ok.1 h
  cases hof : ofDocument (normalPath file) known d with
  | error f =>
    rw [hof] at h
    cases h
  | ok s' =>
    rw [hof] at h
    cases h
    obtain ⟨compiled, -, hlimits, hcompiles, hissues, hrules⟩ := compiled_of_ofDocument hof
    exact ⟨d, compiled.rules, hdocument, hlimits, hcompiles.rules hissues,
      hrules ▸ inOrder_byPriority _⟩

/-- A document whose standard values are representable becomes a rule set exactly where
    nothing is to be told of its entries. -/
theorem load_iff_of_entries {source : Source} {d : Data}
    (hdocument : source.document? (normalPath file) = .ok d)
    (haccepts : layout.Accepts (withoutDates d)) (hlimits : limitsOf (withoutDates d) = .ok limits)
    (hdefaults : ∀ a ∈ entriesOf ((withoutDates d).field? "variables"), IsRepresentable a.2)
    (hentries : AreReadAs (itemsOf ((withoutDates d).field? "rules")) entries) :
    (∃ s, load file known source = .ok s) ↔
      issuesOf (normalPath file) limits known entries = [] := by
  obtain ⟨hsome, hnone⟩ := load_of_entries hdocument haccepts hlimits hentries
  constructor
  · rintro ⟨s, hs⟩
    by_contra hne
    cases (hsome hne).symm.trans hs
  · intro h
    rcases hnone h with hs | ⟨f, -, hvalues⟩
    · exact hs
    · obtain ⟨a, ha, hvalue⟩ := mem_of_mapM_eq_error hvalues
      rcases bind_eq_error.1 hvalue with hvalue | ⟨v, -, hvalue⟩
      · exact absurd hvalue
          (toValue_ne_error (scalar_of_mem_defaults haccepts ha) (hdefaults a ha) f)
      · cases hvalue

/-- **Which files become rule sets, and what their rules are.** Where a document has the
    layout, no setting has a point, and no integer is beyond the doubles, it becomes a rule
    set exactly where the names of its rules are all different and what they say is
    compilable. Then there is one rule for each item, with its expressions read, and they
    stand in order. -/
theorem load_exactly {source : Source} {d : Data}
    (hdocument : source.document? (normalPath file) = .ok d)
    (haccepts : layout.Accepts (withoutDates d))
    (hsettings : ∀ s x, setting? (withoutDates d) s ≠ some (.number x))
    (hdefaults : ∀ a ∈ entriesOf ((withoutDates d).field? "variables"), IsRepresentable a.2)
    (hassigned : ∀ item ∈ itemsOf ((withoutDates d).field? "rules"),
      ∀ a ∈ entriesOf (item.field? "set"), IsRepresentable a.2) :
    ∃ limits, limitsOf (withoutDates d) = .ok limits ∧
      ((∃ s, load file known source = .ok s) ↔
        ((itemsOf ((withoutDates d).field? "rules")).map (textField "name")).Nodup ∧
        ∀ item ∈ itemsOf ((withoutDates d).field? "rules"),
          Compilable limits known (textField "when" item) ∧
          ∀ a ∈ entriesOf (item.field? "set"), Assignable limits known a.2) ∧
      ∀ s, load file known source = .ok s → s.limits = limits ∧
        ∃ rules, List.Forall₂ (IsRuleOf limits) (itemsOf ((withoutDates d).field? "rules")) rules ∧
          InOrder rules s.rules := by
  obtain ⟨limits, hlimits, -⟩ | ⟨s, x, hx, -⟩ := limitsOf_cases haccepts
  · refine ⟨limits, hlimits, ?_, fun s hs => ?_⟩
    · obtain ⟨entries, hentries⟩ := entries_of_accepts haccepts hassigned
      rw [← names_of_entries hentries, ← compilable_entries_iff hentries, ← issuesOf_eq_nil_iff]
      exact load_iff_of_entries hdocument haccepts hlimits hdefaults hentries
    · obtain ⟨d', rules, hdocument', hlimits', hrules, horder⟩ := rules_of_load hs
      cases hdocument.symm.trans hdocument'
      cases hlimits.symm.trans hlimits'
      exact ⟨rfl, rules, hrules, horder⟩
  · exact absurd hx (hsettings s x)

/-- A document of two rules, the second of which comes first. -/
def orders : Data := .mapping [
  (.text "engine", .mapping [(.text "max_iterations", .integer 500)]),
  (.text "variables", .mapping [(.text "threshold", .integer 1000)]),
  (.text "rules", .list [
    .mapping [(.text "name", .text "any"), (.text "when", .text "TRUE"),
      (.text "set", .mapping [(.text "seen", .boolean true)])],
    .mapping [(.text "name", .text "vip"), (.text "when", .text "total > threshold"),
      (.text "priority", .integer 10),
      (.text "set", .mapping [(.text "discount", .number 0.1)])]])]

/-- It becomes a rule set with its two rules. -/
theorem orders_loaded :
    layout.Accepts (withoutDates orders) ∧
      limitsOf (withoutDates orders) = .ok ⟨500, 256, 64⟩ ∧
      ∃ s rules, load "orders.yaml" (fun _ => false) (.document orders) = .ok s ∧
        List.Forall₂ (IsRuleOf ⟨500, 256, 64⟩) (itemsOf ((withoutDates orders).field? "rules"))
          rules ∧
        InOrder rules s.rules := by
  have haccepts : layout.Accepts (withoutDates orders) :=
    layout.misfits_eq_nil_iff.1 (List.eq_nil_of_length_eq_zero (by decide +kernel))
  have hlimits : limitsOf (withoutDates orders) = .ok ⟨500, 256, 64⟩ := rfl
  have hdocument : (Source.document orders).document? (normalPath "orders.yaml") = .ok orders := rfl
  have hsettings : ∀ s x, setting? (withoutDates orders) s ≠ some (.number x) := by
    rintro (_ | _ | _) x h <;> cases h
  obtain ⟨limits, hlimits', hloads, hmade⟩ := load_exactly hdocument haccepts hsettings
    (by decide +kernel) (by decide +kernel)
  cases hlimits.symm.trans hlimits'
  obtain ⟨s, hs⟩ : ∃ s, load "orders.yaml" (fun _ => false) (.document orders) = .ok s :=
    hloads.2 ⟨by decide +kernel, by decide +kernel⟩
  obtain ⟨-, rules, hrules, horder⟩ := hmade s hs
  exact ⟨haccepts, hlimits, s, rules, hs, hrules, horder⟩

end RuleFile

end Rulebook

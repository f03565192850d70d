/-
  Untold — the faults of documents that are not told as issues.

  * `RuleFile.limitsOf_cases`: where a document has the layout, its settings are accepted,
    unless one is a number with a point.
  * `RuleFile.integer_of_toValue_eq_error`: a scalar without a value is an integer beyond
    the doubles.
  * `RuleFile.Untold d f`: the document `d`, its dates being texts, has the fault `f`,
    which is no issue.
  * `RuleFile.load_document_cases`: a document becomes a rule set, or its issues are told,
    save for these faults.
-/
import Rulebook.Proofs.Fitting
import Rulebook.Proofs.Loading

namespace Rulebook.RuleFile

variable {file : String} {known : String → Bool} {d item : Data}

/-! ## Settings -/

/-- What a document gives for a setting. -/
def setting? (d : Data) (s : Setting) : Option Data :=
  (d.field? "engine").bind fun settings => settings.field? s.name

/-- The settings of a document that has the layout are known ones. -/
theorem limitsOf_eq (h : layout.Accepts d) : limitsOf d = Limits.ofSettings (setting? d) := by
  unfold limitsOf
  cases hengine : d.field? "engine" with
  | none =>
    have hgiven : setting? d = fun _ => none := by
      funext s
      rw [setting?, hengine]
      rfl
    rw [hgiven]
    rfl
  | some settings =>
    have hsettings : settingsShape.Accepts settings := h.field (by simp) hengine
    cases hsettings with
    | @record _ _ entries hkeys _ _ =>
      have hunknown : (entries.filterMap (·.1.text?)).filter
          (fun n => !(Setting.all.map Setting.name).contains n) = [] := by
        refine List.filter_eq_nil_iff.2 fun name hname => ?_
        obtain ⟨e, he, hkey⟩ := List.mem_filterMap.1 hname
        obtain ⟨field, hfield, hname⟩ := hkeys e he
        obtain ⟨s, hs, rfl⟩ := List.mem_map.1 hfield
        rw [hname] at hkey
        cases hkey
        simpa using ⟨s, hs, rfl⟩
      have hgiven : setting? d = fun s => (Data.mapping entries).field? s.name := by
        funext s
        rw [setting?, hengine]
        rfl
      rw [hgiven]
      show Limits.ofMapping entries = _
      unfold Limits.ofMapping
      simp only [hunknown]
      rfl

/-- What is given for a setting is a positive whole number. -/
theorem whole_of_setting (h : layout.Accepts d) {s : Setting} {x : Data}
    (hx : setting? d s = some x) : (Shape.whole (some 1)).Accepts x := by
  obtain ⟨settings, hengine, hx⟩ := Option.bind_eq_some_iff.1 hx
  have hsettings : settingsShape.Accepts settings := h.field (by simp) hengine
  refine hsettings.field (List.mem_map.2 ⟨s, ?_, rfl⟩) hx
  cases s <;> simp [Setting.all]

/-- A positive whole number is accepted as a setting, unless it has a point. -/
theorem checked_cases (given : Setting → Option Data) (s : Setting)
    (h : ∀ x, given s = some x → (Shape.whole (some 1)).Accepts x) :
    (∃ n, Limits.checked given s = .ok n ∧ ∀ x, given s ≠ some (.number x)) ∨
    ∃ x, given s = some (.number x) ∧
      Limits.checked given s = .error (.notPositive s (Data.number x).written) := by
  unfold Limits.checked
  cases hgiven : given s with
  | none => exact .inl ⟨_, rfl, by simp⟩
  | some d =>
    cases h d hgiven with
    | @integer _ n hn =>
      obtain ⟨k, rfl⟩ : ∃ k : ℕ, n = k + 1 := by
        have := hn 1 rfl
        exact ⟨(n - 1).toNat, by omega⟩
      exact .inl ⟨_, rfl, by simp⟩
    | number => exact .inr ⟨_, rfl, rfl⟩

/-- Where a document has the layout, its settings are accepted, unless one is a number
    with a point. -/
theorem limitsOf_cases (h : layout.Accepts d) :
    (∃ limits, limitsOf d = .ok limits ∧ ∀ s x, setting? d s ≠ some (.number x)) ∨
    ∃ s x, setting? d s = some (.number x) ∧
      limitsOf d = .error (.notPositive s (Data.number x).written) := by
  have hchecked := fun s => checked_cases (setting? d) s fun x hx => whole_of_setting h hx
  rw [limitsOf_eq h, Limits.ofSettings]
  rcases hchecked .maxIterations with ⟨iterations, hok, hiterations⟩ | ⟨x, hx, herror⟩
  · rw [hok, ok_bind]
    rcases hchecked .maxDepth with ⟨depth, hok, hdepth⟩ | ⟨x, hx, herror⟩
    · rw [hok, ok_bind]
      rcases hchecked .maxNesting with ⟨nesting, hok, hnesting⟩ | ⟨x, hx, herror⟩
      · rw [hok, ok_bind]
        refine .inl ⟨_, rfl, fun s => ?_⟩
        cases s
        exacts [hiterations, hdepth, hnesting]
      · exact .inr ⟨_, x, hx, by rw [herror]; rfl⟩
    · exact .inr ⟨_, x, hx, by rw [herror]; rfl⟩
  · exact .inr ⟨_, x, hx, by rw [herror]; rfl⟩

/-! ## Scalars -/

/-- A scalar without a value is an integer beyond the doubles. -/
theorem integer_of_toValue_eq_error {f : DataFault} (h : Shape.scalar.Accepts d)
    (hv : d.toValue = .error f) :
    ∃ n, d = .integer n ∧ Number.ofInt? n = none ∧ f = .integerTooLarge := by
  cases h with
  | @scalar k _ hk hd =>
    cases d with
    | integer n =>
      unfold Data.toValue at hv
      cases hn : Number.ofInt? n with
      | none =>
        simp only [hn] at hv
        cases hv
        exact ⟨n, rfl, hn, rfl⟩
      | some x =>
        simp only [hn] at hv
        cases hv
    | list | mapping =>
      simp only [Kind.scalars, List.mem_cons, List.not_mem_nil, or_false] at hk
      rcases hk with rfl | rfl | rfl | rfl <;> cases hd
    | _ => cases hv

/-- The entries of a mapping of scalars are scalars. -/
theorem scalar_of_mem_entriesOf (keys : Option NameForm) {field : Option Data}
    (h : ∀ x, field = some x → (Shape.mapping keys .scalar).Accepts x) {a : String × Data}
    (ha : a ∈ entriesOf field) : Shape.scalar.Accepts a.2 := by
  unfold entriesOf at ha
  split at ha
  · obtain ⟨e, he, rfl⟩ := List.mem_map.1 ha
    cases h _ rfl with
    | mapping _ hvalues => exact hvalues e he
  · cases ha

theorem scalar_of_mem_defaults (h : layout.Accepts d) {a : String × Data}
    (ha : a ∈ entriesOf (d.field? "variables")) : Shape.scalar.Accepts a.2 :=
  scalar_of_mem_entriesOf none (fun _ hx => h.field (by simp) hx) ha

theorem scalar_of_mem_assigned (h : layout.Accepts d) (hitem : item ∈ itemsOf (d.field? "rules"))
    {a : String × Data} (ha : a ∈ entriesOf (item.field? "set")) : Shape.scalar.Accepts a.2 := by
  unfold itemsOf at hitem
  split at hitem
  · next items hrules =>
    have hlist : (Shape.list ruleShape).Accepts (.list items) := h.field (by simp) hrules
    cases hlist with
    | list hitems =>
      have hrule : ruleShape.Accepts item := hitems item hitem
      exact scalar_of_mem_entriesOf (some .variable_) (fun _ hx => hrule.field (by simp) hx) ha
  · cases hitem

/-! ## Documents -/

/-- The faults of a document, its dates being texts, that are no issues. -/
inductive Untold (d : Data) : LoadFault → Prop
  /-- Two places where it does not have the layout cannot be put in order. -/
  | order {f : OrderFault} :
      Incomparable (fun a b => pathBefore a.path b.path) f (layout.misfits d) →
      Untold d (.layout (.order f))
  /-- Where it does not have the layout, an integer has too many digits. -/
  | digits {l : Located} : l ∈ layout.misfits d → IsUnwritable l →
      Untold d (.layout .tooManyDigits)
  /-- A setting is a whole number, but written with a point. -/
  | setting {s : Setting} {x : Float} : layout.Accepts d → setting? d s = some (.number x) →
      Untold d (.limits (.notPositive s (Data.number x).written))
  /-- A rule assigns an integer beyond the doubles. -/
  | assigned {item : Data} {target : String} {n : Int} : layout.Accepts d →
      item ∈ itemsOf (d.field? "rules") → (target, .integer n) ∈ entriesOf (item.field? "set") →
      Number.ofInt? n = none → Untold d (.data .integerTooLarge)
  /-- The standard value of a variable is an integer beyond the doubles. -/
  | default {name : String} {n : Int} : layout.Accepts d →
      (name, .integer n) ∈ entriesOf (d.field? "variables") → Number.ofInt? n = none →
      Untold d (.data .integerTooLarge)

/-- However a document ends up, it is a rule set, has issues, or has an untold fault. -/
theorem Loads.cases {result : Except LoadFault RuleSet} (h : Loads file known d result) :
    (∃ s, result = .ok s) ∨ (∃ issues, issues ≠ [] ∧ result = .error (.issues issues)) ∨
      ∃ f, result = .error f ∧ Untold d f := by
  cases h with
  | made => exact .inl ⟨_, rfl⟩
  | misfits _ hne => exact .inr (.inl ⟨_, hne, rfl⟩)
  | rules _ hne => exact .inr (.inl ⟨_, hne, rfl⟩)
  | layout hlayout =>
    refine .inr (.inr ⟨_, rfl, ?_⟩)
    rcases layoutIssues_cases file d with ⟨f, hcase, h⟩ | ⟨hcase, l, hl, h⟩ | ⟨misfits, -, hcase⟩
    · cases hcase.symm.trans hlayout
      exact .order h
    · cases hcase.symm.trans hlayout
      exact .digits hl h
    · cases hcase.symm.trans hlayout
  | settings hlayout hlimits =>
    have haccepts := layoutIssues_eq_nil_iff.1 hlayout
    refine .inr (.inr ⟨_, rfl, ?_⟩)
    rcases limitsOf_cases haccepts with ⟨limits, hok, -⟩ | ⟨s, x, hx, herror⟩
    · cases hok.symm.trans hlimits
    · cases herror.symm.trans hlimits
      exact .setting haccepts hx
  | assigned hlayout hitem hentry =>
    have haccepts := layoutIssues_eq_nil_iff.1 hlayout
    refine .inr (.inr ⟨_, rfl, ?_⟩)
    obtain ⟨⟨target, x⟩, ha, hx⟩ := assigned_of_entry_eq_error hentry
    obtain ⟨n, rfl, hn, rfl⟩ :=
      integer_of_toValue_eq_error (scalar_of_mem_assigned haccepts hitem ha) hx
    exact .assigned haccepts hitem ha hn
  | defaults hlayout hvalues =>
    have haccepts := layoutIssues_eq_nil_iff.1 hlayout
    refine .inr (.inr ⟨_, rfl, ?_⟩)
    obtain ⟨⟨name, x⟩, ha, hx⟩ := mem_of_mapM_eq_error hvalues
    rcases bind_eq_error.1 hx with hx | ⟨v, -, hx⟩
    · obtain ⟨n, rfl, hn, rfl⟩ :=
        integer_of_toValue_eq_error (scalar_of_mem_defaults haccepts ha) hx
      exact .default haccepts ha hn
    · cases hx

/-- A document that has the layout and gives a setting with a point is not loaded. -/
theorem ofDocument_of_setting (h : layout.Accepts (withoutDates d)) {s : Setting} {x : Float}
    (hx : setting? (withoutDates d) s = some (.number x)) :
    ∃ s given, ofDocument file known d = .error (.limits (.notPositive s given)) := by
  rcases limitsOf_cases h with ⟨limits, -, hnone⟩ | ⟨s', x', -, herror⟩
  · exact absurd hx (hnone s x)
  · refine ⟨s', (Data.number x').written, ?_⟩
    unfold ofDocument
    simp only [layoutIssues_eq_nil_iff.2 h, herror]
    rfl

theorem load_document (h : d ≠ .null) :
    load file known (.document d) = (ofDocument (normalPath file) known d).mapError .load := by
  have hdocument : ∀ file, (Source.document d).document? file = .ok d := by
    intro file
    cases d with
    | null => exact absurd rfl h
    | _ => rfl
  simp only [load, hdocument, ok_bind]

/-- An empty document does not have the layout. -/
theorem not_accepts_null : ¬ layout.Accepts (withoutDates .null) := by
  intro h
  cases h

/-- **A document becomes a rule set, or its issues are told, save for untold faults**, of
    which a setting with a point is one. -/
theorem load_document_cases (file : String) (known : String → Bool) (d : Data) :
    ((∃ s, load file known (.document d) = .ok s) ∨
      (∃ issues, issues ≠ [] ∧
        load file known (.document d) = .error (.load (.issues issues))) ∨
      ∃ f, load file known (.document d) = .error (.load f) ∧ Untold (withoutDates d) f) ∧
    (layout.Accepts (withoutDates d) →
      (∃ s x, setting? (withoutDates d) s = some (.number x)) →
        ∃ s given, load file known (.document d) =
          .error (.load (.limits (.notPositive s given)))) := by
  by_cases hnull : d = .null
  · subst hnull
    exact ⟨.inr (.inl ⟨_, List.cons_ne_nil _ _, rfl⟩), fun h => absurd h not_accepts_null⟩
  rw [load_document hnull]
  constructor
  · rcases (ofDocument_loads (normalPath file) known d).cases with
      ⟨s, hs⟩ | ⟨issues, hne, hissues⟩ | ⟨f, hf, huntold⟩
    · exact .inl ⟨s, by rw [hs]; rfl⟩
    · exact .inr (.inl ⟨issues, hne, by rw [hissues]; rfl⟩)
    · exact .inr (.inr ⟨f, by rw [hf]; rfl, huntold⟩)
  · rintro haccepts ⟨s, x, hx⟩
    obtain ⟨s', given, herror⟩ := ofDocument_of_setting haccepts hx
    exact ⟨s', given, by rw [herror]; rfl⟩

/-- A document whose only setting is a whole number with a point. -/
def pointedDepth : Data := .mapping [
  (.text "engine", .mapping [(.text "max_depth", .number 5.0)]),
  (.text "rules", .list [])]

/-- A document that has two keys for variables which cannot be put in order, and no value
    of the language for either. -/
def mixedKeys : Data := .mapping [
  (.text "rules", .list []),
  (.text "variables", .mapping [(.integer 1, .list []), (.text "a", .list [])])]

/-- The layout takes a whole number with a point for a setting, and loading does not. -/
theorem pointedDepth_untold :
    layout.Accepts (withoutDates pointedDepth) ∧
      setting? (withoutDates pointedDepth) .maxDepth = some (.number 5.0) ∧
      ∃ s given, load "rules.yaml" (fun _ => false) (.document pointedDepth) =
        .error (.load (.limits (.notPositive s given))) := by
  have haccepts : layout.Accepts (withoutDates pointedDepth) :=
    layout.misfits_eq_nil_iff.1 (List.eq_nil_of_length_eq_zero (by decide +kernel))
  have hsetting : setting? (withoutDates pointedDepth) .maxDepth = some (.number 5.0) := rfl
  exact ⟨haccepts, hsetting, (load_document_cases _ _ _).2 haccepts ⟨_, _, hsetting⟩⟩

/-- Neither the pointed setting nor the keys of two kinds are told as issues. -/
theorem faults_untold :
    (load "rules.yaml" (fun _ => false) (.document pointedDepth)).map (fun _ => ()) =
        .error (.load (.limits (.notPositive .maxDepth "5.0"))) ∧
      (load "rules.yaml" (fun _ => false) (.document mixedKeys)).map (fun _ => ()) =
        .error (.load (.layout (.order (.kinds "str" "int")))) := by
  constructor <;> decide +kernel

end Rulebook.RuleFile

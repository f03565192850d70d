/-
  Loading — what becomes of a document on its way to a rule set.

  * `RuleFile.Compiles limits known seen entries compiled`: what the entries of a file
    are compiled to, entry by entry; `compiles_of_ok` says that this is what
    `compileEntries` gives.
  * `Compiles.nodup`: no two rules have one name, so that the rules of a file always
    make a set.
  * `Compiles.callsKnown`: where no issues are told, the rules call known functions only.
  * `RuleFile.Loads file known d result`: the ways in which the document `d`, its dates
    being texts, ends up as `result`; `ofDocument_loads` says that there are no others.
-/
import Mathlib.Data.List.Nodup
import Rulebook.Proofs.Dependence
import Rulebook.Proofs.Firing
import Rulebook.Proofs.Priorities
import Rulebook.RuleFile.Load

namespace Rulebook

/-! ## Answers -/

section
variable {ε α β : Type}

theorem mem_of_mapM_eq_error {f : α → Except ε β} {xs : List α} {e : ε}
    (h : xs.mapM f = .error e) : ∃ x ∈ xs, f x = .error e := by
  rcases mapM_cases f xs with ⟨hok, -⟩ | ⟨e', more, herror, hmore⟩
  · cases hok.symm.trans h
  · cases herror.symm.trans h
    have hmem : e ∈ xs.filterMap fun x => error? (f x) := hmore ▸ List.mem_cons_self
    obtain ⟨x, hx, he⟩ := List.mem_filterMap.1 hmem
    exact ⟨x, hx, error?_eq_some.1 he⟩

end

namespace RuleFile

variable {file : String} {limits : Limits} {known : String → Bool} {seen : List String}
  {index : ℕ} {d : Data} {entries : List Data} {compiled : Compiled} {f : DataFault}

/-! ## Entries -/

theorem name_of_entry_eq_ok {e : RuleEntry} (h : entry d = .ok e) :
    e.name = textField "name" d := by
  obtain ⟨assignments, -, h⟩ := bind_eq_ok.1 h
  cases h
  rfl

/-- An entry cannot be read because of something that it assigns. -/
theorem assigned_of_entry_eq_error (h : entry d = .error f) :
    ∃ a ∈ entriesOf (d.field? "set"), a.2.toValue = .error f := by
  rcases bind_eq_error.1 h with h | ⟨assignments, -, h⟩
  · obtain ⟨a, ha, h⟩ := mem_of_mapM_eq_error h
    refine ⟨a, ha, ?_⟩
    rcases bind_eq_error.1 h with h | ⟨source, -, h⟩
    · unfold sourceOf at h
      split at h
      · cases h
      · rcases bind_eq_error.1 h with h | ⟨v, -, h⟩
        exacts [h, by cases h]
    · cases h
  · cases h

theorem name_of_compile {e : RuleEntry} {r : Rule} (h : e.compile limits = .ok r) :
    r.name = e.name := by
  obtain ⟨condition, -, h⟩ := bind_eq_ok.1 h
  obtain ⟨actions, -, h⟩ := bind_eq_ok.1 h
  cases h
  rfl

/-- The rule of an entry has its name, and calls known functions only, unless there is
    something to tell. -/
theorem rule_of_compileEntry {e : RuleEntry} {r : Rule}
    (hr : r ∈ (compileEntry limits known e).1.toList) :
    r.name = e.name ∧
      ((compileEntry limits known e).2 = [] → ∀ name ∈ r.referencedFunctions, known name) := by
  unfold compileEntry at hr ⊢
  cases hcompile : e.compile limits with
  | error error =>
    rw [hcompile] at hr
    cases hr
  | ok r' =>
    rw [hcompile] at hr
    obtain rfl : r = r' := by simpa using hr
    refine ⟨name_of_compile hcompile, fun hnone name hname => ?_⟩
    by_contra hunknown
    have hmem : name ∈ (sortedNames r.referencedFunctions).filter fun f => !known f :=
      List.mem_filter.2 ⟨mem_sortedNames.2 hname, by simpa using hunknown⟩
    rw [List.map_eq_nil_iff.1 hnone] at hmem
    cases hmem

/-! ## Entries of a file -/

/-- What the entries of a file are compiled to, where the names in `seen` are taken. -/
inductive Compiles (limits : Limits) (known : String → Bool) :
    List String → List Data → Compiled → Prop
  | nil {seen : List String} : Compiles limits known seen [] ⟨[], []⟩
  | repeated {seen : List String} {d : Data} {rest : List Data} {others : Compiled}
      (issue : Issue) : textField "name" d ∈ seen → Compiles limits known seen rest others →
      Compiles limits known seen (d :: rest) { others with issues := issue :: others.issues }
  | entry {seen : List String} {d : Data} {rest : List Data} {others : Compiled} {e : RuleEntry}
      (told : String → Issue) : textField "name" d ∉ seen → entry d = .ok e →
      Compiles limits known (textField "name" d :: seen) rest others →
      Compiles limits known seen (d :: rest)
        ⟨(compileEntry limits known e).1.toList ++ others.rules,
          (compileEntry limits known e).2.map told ++ others.issues⟩

theorem compiles_of_ok (h : compileEntries file limits known seen index entries = .ok compiled) :
    Compiles limits known seen entries compiled := by
  induction entries generalizing seen index compiled with
  | nil =>
    cases h
    exact .nil
  | cons d rest ih =>
    rw [compileEntries] at h
    split_ifs at h with hseen
    · obtain ⟨others, hothers, h⟩ := bind_eq_ok.1 h
      cases h
      exact .repeated _ (List.contains_iff_mem.1 hseen) (ih hothers)
    · obtain ⟨e, he, h⟩ := bind_eq_ok.1 h
      obtain ⟨others, hothers, h⟩ := bind_eq_ok.1 h
      cases h
      exact .entry _ (fun hmem => hseen (List.contains_iff_mem.2 hmem)) he (ih hothers)

theorem entry_of_compileEntries_eq_error
    (h : compileEntries file limits known seen index entries = .error f) :
    ∃ d ∈ entries, entry d = .error f := by
  induction entries generalizing seen index with
  | nil => cases h
  | cons d rest ih =>
    have hrest : ∀ {seen}, compileEntries file limits known seen (index + 1) rest = .error f →
        ∃ d' ∈ d :: rest, entry d' = .error f := by
      intro seen h
      obtain ⟨d', hd', he⟩ := ih h
      exact ⟨d', by simp [hd'], he⟩
    rw [compileEntries] at h
    split_ifs at h
    · rcases bind_eq_error.1 h with h | ⟨others, -, h⟩
      exacts [hrest h, by cases h]
    · rcases bind_eq_error.1 h with h | ⟨e, -, h⟩
      · exact ⟨d, by simp, h⟩
      · rcases bind_eq_error.1 h with h | ⟨others, -, h⟩
        exacts [hrest h, by cases h]

/-- No two rules have one name, and none has a name that was taken. -/
theorem Compiles.nodup (h : Compiles limits known seen entries compiled) :
    (compiled.rules.map (·.name)).Nodup ∧ ∀ r ∈ compiled.rules, r.name ∉ seen := by
  induction h with
  | nil => simp
  | repeated issue hseen _ ih => exact ih
  | @entry seen d rest others e told hseen he _ ih =>
    obtain ⟨hnodup, hnew⟩ := ih
    simp only [List.mem_cons, not_or] at hnew
    have hrule : ∀ r ∈ (compileEntry limits known e).1.toList, r.name = textField "name" d :=
      fun r hr => (rule_of_compileEntry hr).1.trans (name_of_entry_eq_ok he)
    constructor
    · cases hcompiled : (compileEntry limits known e).1 with
      | none => simpa using hnodup
      | some r =>
        rw [hcompiled] at hrule
        have hfresh : r.name ∉ others.rules.map (·.name) := by
          rw [hrule r (by simp)]
          intro hmem
          obtain ⟨r', hr', hname⟩ := List.mem_map.1 hmem
          exact (hnew r' hr').1 hname
        exact List.nodup_cons.2 ⟨hfresh, hnodup⟩
    · intro r hr
      rcases List.mem_append.1 hr with hr | hr
      · rw [hrule r hr]
        exact hseen
      · exact (hnew r hr).2

/-- Where nothing is told, the rules call known functions only. -/
theorem Compiles.callsKnown (h : Compiles limits known seen entries compiled)
    (hnone : compiled.issues = []) :
    ∀ r ∈ compiled.rules, ∀ name ∈ r.referencedFunctions, known name := by
  induction h with
  | nil => simp
  | repeated issue hseen _ ih => cases hnone
  | entry told hseen he _ ih =>
    rw [List.append_eq_nil_iff, List.map_eq_nil_iff] at hnone
    intro r hr
    rcases List.mem_append.1 hr with hr | hr
    · exact (rule_of_compileEntry hr).2 hnone.1
    · exact ih hnone.2 r hr

/-! ## Documents -/

/-- The ways in which a document, its dates being texts, becomes a rule set or does not. -/
inductive Loads (file : String) (known : String → Bool) (d : Data) :
    Except LoadFault RuleSet → Prop
  | layout {f : LayoutFault} : layoutIssues file d = .error f →
      Loads file known d (.error (.layout f))
  | misfits {issues : List Issue} : layoutIssues file d = .ok issues → issues ≠ [] →
      Loads file known d (.error (.issues issues))
  | settings {f : LimitsFault} : layoutIssues file d = .ok [] → limitsOf d = .error f →
      Loads file known d (.error (.limits f))
  | assigned {item : Data} {f : DataFault} : layoutIssues file d = .ok [] →
      item ∈ itemsOf (d.field? "rules") → entry item = .error f →
      Loads file known d (.error (.data f))
  | rules {issues : List Issue} : layoutIssues file d = .ok [] → issues ≠ [] →
      Loads file known d (.error (.issues issues))
  | defaults {f : DataFault} : layoutIssues file d = .ok [] →
      valuesOf (entriesOf (d.field? "variables")) = .error f →
      Loads file known d (.error (.data f))
  | made {s : RuleSet} {compiled : Compiled} : layoutIssues file d = .ok [] →
      Compiles s.limits known [] (itemsOf (d.field? "rules")) compiled → compiled.issues = [] →
      s.rules = byPriority compiled.rules → Loads file known d (.ok s)

/-- **A document becomes a rule set in these ways, or does not.** -/
theorem ofDocument_loads (file : String) (known : String → Bool) (d : Data) :
    Loads file known (withoutDates d) (ofDocument file known d) := by
  unfold ofDocument
  generalize withoutDates d = d
  dsimp only
  cases hlayout : layoutIssues file d with
  | error f => exact .layout hlayout
  | ok issues =>
  cases issues with
  | cons issue issues => exact .misfits hlayout (by simp)
  | nil =>
  dsimp only
  cases hlimits : limitsOf d with
  | error f => exact .settings hlayout hlimits
  | ok limits =>
  simp only [Except.mapError, ok_bind]
  cases hcompiled : compileEntries file limits known [] 0 (itemsOf (d.field? "rules")) with
  | error f =>
    obtain ⟨item, hitem, he⟩ := entry_of_compileEntries_eq_error hcompiled
    exact .assigned hlayout hitem he
  | ok compiled =>
  cases hissues : compiled.issues with
  | cons issue issues =>
    simp only [ok_bind, hissues]
    exact .rules hlayout (List.cons_ne_nil issue issues)
  | nil =>
  have hcompiles := compiles_of_ok hcompiled
  have hnames := repeatedName?_nil_eq_none_iff.2 (nodup_names_byPriority.2 hcompiles.nodup.1)
  simp only [ok_bind, hissues, RuleSet.ofRules, Except.mapError]
  cases hvalues : valuesOf (entriesOf (d.field? "variables")) with
  | error f => exact .defaults hlayout hvalues
  | ok values =>
    simp only [ok_bind, hnames]
    exact .made hlayout hcompiles hissues rfl

end RuleFile

end Rulebook

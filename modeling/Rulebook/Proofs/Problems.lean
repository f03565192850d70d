/-
  Problems — what is wrong with the entries of a rule file, and what is told of it.

  * `Problem` is something wrong with an entry; `RuleEntry.problems` lists all that is, in
    the order in which it is looked for: a name that is taken, the expressions that cannot
    be read, the functions that are not known. `mem_errors`, `mem_unknownFunctions` and
    `nodup_unknownFunctions` say what the last two are.
  * `told` are those of them that are told: what keeps an entry from being compiled hides
    all that comes after it.
  * `RuleFile.issues_compileEntries`: compiling the entries of a file tells just that, entry
    by entry.
  * `RuleFile.load_issues`: and these are the issues of a file that has the layout and whose
    settings are accepted.
-/
import Rulebook.Proofs.Untold

namespace Rulebook

/-! ## The expressions of an entry -/

namespace RuleEntry

/-- The texts that are read as its expressions, the condition first. -/
def sources (e : RuleEntry) : List String := e.when :: e.assignments.map (·.2)

/-- The errors of the texts that cannot be read. -/
def errors (limits : Limits) (e : RuleEntry) : List ExpressionError :=
  e.sources.filterMap fun source => error? (parse .expression limits.maxNesting source)

/-- The expressions that the other texts are. -/
def readable (limits : Limits) (e : RuleEntry) : List Node :=
  e.sources.filterMap fun source => (parse .expression limits.maxNesting source).toOption

/-- The functions that these expressions call and that are not known, each once. -/
def unknownFunctions (limits : Limits) (known : String → Bool) (e : RuleEntry) : List String :=
  (sortedNames ((e.readable limits).flatMap (·.referencedFunctions))).filter fun f => !known f

variable {limits : Limits} {known : String → Bool} {e : RuleEntry}

/-- Compiling an entry reads its expressions one after the other. -/
theorem expressions_compile (limits : Limits) (e : RuleEntry) :
    (e.compile limits).map (·.expressions) =
      e.sources.mapM (parse .expression limits.maxNesting) := by
  have hactions : ∀ assignments : List (String × String),
      (assignments.mapM fun a => Action.compile limits a.1 a.2).map
          (List.map (·.expression)) =
        (assignments.map (·.2)).mapM (parse .expression limits.maxNesting) := by
    intro assignments
    induction assignments with
    | nil => rfl
    | cons a rest ih =>
      rw [List.map_cons, List.mapM_cons, List.mapM_cons, ← ih, Action.compile]
      cases parse .expression limits.maxNesting a.2 with
      | error x => rfl
      | ok tree => cases rest.mapM fun a => Action.compile limits a.1 a.2 <;> rfl
  rw [sources, List.mapM_cons, ← hactions, compile]
  cases parse .expression limits.maxNesting e.when with
  | error x => rfl
  | ok tree => cases e.assignments.mapM fun a => Action.compile limits a.1 a.2 <;> rfl

/-- An entry is compiled if all its expressions can be read, and else its first error is
    told. -/
theorem compile_cases (limits : Limits) (e : RuleEntry) :
    (∃ r, e.compile limits = .ok r ∧ e.errors limits = [] ∧
      r.expressions = e.readable limits) ∨
    ∃ x more, e.compile limits = .error x ∧ e.errors limits = x :: more := by
  have hcompile := expressions_compile limits e
  rcases mapM_cases (parse .expression limits.maxNesting) e.sources with
    ⟨hok, hnone⟩ | ⟨x, more, herror, hmore⟩
  · rw [hok] at hcompile
    cases hr : e.compile limits with
    | error x =>
      rw [hr] at hcompile
      cases hcompile
    | ok r =>
      rw [hr] at hcompile
      exact .inl ⟨r, rfl, hnone, Except.ok.inj hcompile⟩
  · rw [herror] at hcompile
    cases hr : e.compile limits with
    | error y =>
      rw [hr] at hcompile
      cases hcompile
      exact .inr ⟨x, more, rfl, hmore⟩
    | ok r =>
      rw [hr] at hcompile
      cases hcompile

theorem mem_errors {x : ExpressionError} : x ∈ e.errors limits ↔
    ∃ source ∈ e.sources, parse .expression limits.maxNesting source = .error x := by
  simp only [errors, List.mem_filterMap, error?_eq_some]

theorem mem_unknownFunctions {name : String} : name ∈ e.unknownFunctions limits known ↔
    (∃ source ∈ e.sources, ∃ x, parse .expression limits.maxNesting source = .ok x ∧
      name ∈ x.referencedFunctions) ∧ known name = false := by
  rw [unknownFunctions, List.mem_filter, mem_sortedNames, Bool.not_eq_true']
  refine and_congr_left fun _ => ?_
  constructor
  · intro h
    obtain ⟨x, hx, hname⟩ := List.mem_flatMap.1 h
    obtain ⟨source, hsource, hx⟩ := List.mem_filterMap.1 hx
    refine ⟨source, hsource, x, ?_, hname⟩
    cases hparse : parse .expression limits.maxNesting source with
    | error e =>
      rw [hparse] at hx
      cases hx
    | ok y =>
      rw [hparse] at hx
      rw [Option.some.inj hx]
  · rintro ⟨source, hsource, x, hx, hname⟩
    exact List.mem_flatMap.2 ⟨x, List.mem_filterMap.2 ⟨source, hsource, by rw [hx]; rfl⟩, hname⟩

/-- Each unknown function stands there once. -/
theorem nodup_unknownFunctions : (e.unknownFunctions limits known).Nodup :=
  (nodup_sortedNames _).filter _

end RuleEntry

/-! ## Problems -/

/-- Something wrong with an entry. -/
inductive Problem where
  | repeatedName
  | unreadable (error : ExpressionError)
  | unknownFunction (name : String)

namespace Problem

/-- What is said of a problem of the rule of a name. -/
def message (rule : String) : Problem → String
  | repeatedName => s!"Duplicate rule name '{rule}'"
  | unreadable error => s!"Rule '{rule}': {error.text}"
  | unknownFunction name => s!"Rule '{rule}' calls unknown function '{name}'"

/-- Of several problems, those that are told: the first one hides all others, unless it
    is an unknown function. -/
def told : List Problem → List Problem
  | [] => []
  | .unknownFunction name :: rest => .unknownFunction name :: rest
  | p :: _ => [p]

end Problem

open Problem

/-- All that is wrong with an entry, whose name may repeat that of an earlier one. -/
def RuleEntry.problems (limits : Limits) (known : String → Bool) (isRepeated : Bool)
    (e : RuleEntry) : List Problem :=
  (if isRepeated then [repeatedName] else []) ++ (e.errors limits).map unreadable ++
    (e.unknownFunctions limits known).map unknownFunction

/-- Only the first problems are told, one at least. -/
theorem told_initial (ps : List Problem) : told ps <+: ps := by
  match ps with
  | [] => exact List.prefix_refl _
  | .unknownFunction _ :: _ => exact List.prefix_refl _
  | .repeatedName :: rest => exact ⟨rest, rfl⟩
  | .unreadable _ :: rest => exact ⟨rest, rfl⟩

@[simp] theorem told_eq_nil_iff {ps : List Problem} : told ps = [] ↔ ps = [] := by
  match ps with
  | [] | .unknownFunction _ :: _ | .repeatedName :: _ | .unreadable _ :: _ => simp [told]

section
variable {limits : Limits} {known : String → Bool} {e : RuleEntry}

theorem told_map_unknownFunction (names : List String) :
    told (names.map unknownFunction) = names.map unknownFunction := by
  cases names <;> rfl

/-- All problems of an entry are told where there is one only, or where all are unknown
    functions, and in no other case. -/
theorem told_problems_eq_iff {isRepeated : Bool} :
    told (e.problems limits known isRepeated) = e.problems limits known isRepeated ↔
      (e.problems limits known isRepeated).length ≤ 1 ∨
        ∀ p ∈ e.problems limits known isRepeated, ∃ name, p = unknownFunction name := by
  unfold RuleEntry.problems
  cases isRepeated with
  | true => simp [told]
  | false =>
    cases e.errors limits with
    | nil => simp [told_map_unknownFunction]
    | cons x more => simp [told]

end

namespace RuleFile

variable {file : String} {limits : Limits} {known : String → Bool} {seen : List String}
  {items : List Data} {entries : List RuleEntry}

/-! ## Entries of a file -/

/-- The entries that items of a document are read as. -/
abbrev AreReadAs (items : List Data) (entries : List RuleEntry) : Prop :=
  List.Forall₂ (fun item e => entry item = .ok e) items entries

/-- Compiling an entry that has a name of its own. -/
theorem compileEntry_eq (limits : Limits) (known : String → Bool) (e : RuleEntry) :
    compileEntry limits known e = ((e.compile limits).toOption,
      (told (e.problems limits known false)).map (message e.name)) := by
  unfold compileEntry RuleEntry.problems
  rcases e.compile_cases limits with ⟨r, hr, herrors, htrees⟩ | ⟨x, more, hx, herrors⟩
  · have hunknown : (sortedNames r.referencedFunctions).filter (fun f => !known f) =
        e.unknownFunctions limits known := by
      rw [RuleEntry.unknownFunctions, ← htrees]
      rfl
    simp only [hr, herrors, hunknown, Bool.false_eq_true, if_false, List.map_nil, List.nil_append,
      told_map_unknownFunction, List.map_map]
    rfl
  · simp only [hx, herrors]
    rfl

/-- What is wrong with the entry at a position of a file. -/
def problemsAt (limits : Limits) (known : String → Bool) (entries : List RuleEntry) (i : ℕ)
    (e : RuleEntry) : List Problem :=
  e.problems limits known (((entries.take i).map (·.name)).contains e.name)

/-- What is told of the entry at a position of a file. -/
def issuesAt (file : String) (limits : Limits) (known : String → Bool) (entries : List RuleEntry)
    (i : ℕ) (e : RuleEntry) : List Issue :=
  (told (problemsAt limits known entries i e)).map fun p =>
    ⟨file, p.message e.name, s!"rules[{i}]"⟩

/-- What is told of the entries of a file. -/
def issuesOf (file : String) (limits : Limits) (known : String → Bool)
    (entries : List RuleEntry) : List Issue :=
  entries.zipIdx.flatMap fun x => issuesAt file limits known entries x.2 x.1

/-- What is told of an entry stands before what is told of those after it. -/
theorem issues_compileEntries_cons {item : Data} {e : RuleEntry} {index : ℕ}
    (hentry : entry item = .ok e) :
    (compileEntries file limits known seen index (item :: items)).map (·.issues) =
      ((compileEntries file limits known
        (if seen.contains e.name then seen else e.name :: seen) (index + 1) items).map
          (·.issues)).map fun others =>
        ((told (e.problems limits known (seen.contains e.name))).map fun p =>
          ⟨file, p.message e.name, s!"rules[{index}]"⟩) ++ others := by
  rw [compileEntries, ← name_of_entry_eq_ok hentry, hentry, ok_bind, compileEntry_eq]
  cases hrepeated : seen.contains e.name with
  | true =>
    simp only [if_true]
    cases compileEntries file limits known seen (index + 1) items <;> rfl
  | false =>
    simp only [Bool.false_eq_true, if_false, List.map_map]
    cases compileEntries file limits known (e.name :: seen) (index + 1) items <;> rfl

/-- What is told of the entries that come after some others, whose names are taken. -/
theorem issues_compileEntries_after
    (h : AreReadAs items entries) :
    ∀ (past : List RuleEntry) {seen : List String},
      (∀ name, seen.contains name = (past.map (·.name)).contains name) →
      (compileEntries file limits known seen past.length items).map (·.issues) =
        .ok ((entries.zipIdx past.length).flatMap fun x =>
          issuesAt file limits known (past ++ entries) x.2 x.1) := by
  induction h with
  | nil => intro past seen _; rfl
  | @cons item e items entries hentry _ ih =>
    intro past seen hseen
    have htaken : ∀ name, (if seen.contains e.name then seen else e.name :: seen).contains name =
        ((past ++ [e]).map (·.name)).contains name := by
      intro name
      rw [List.map_append, List.contains_append, ← hseen]
      split_ifs with hrepeated
      · by_cases heq : name = e.name
        · rw [heq, hrepeated, Bool.true_or]
        · simp [heq]
      · simp [Bool.or_comm]
    have hrest := ih (past ++ [e]) htaken
    rw [List.length_append, List.append_assoc] at hrest
    rw [issues_compileEntries_cons hentry, show past.length + 1 = past.length + [e].length from rfl,
      hrest, List.zipIdx_cons, List.flatMap_cons, issuesAt, problemsAt, List.take_left, ← hseen]
    rfl

/-- **Compiling entries tells what is to be told of each of them, in order.** -/
theorem issues_compileEntries
    (h : AreReadAs items entries) :
    (compileEntries file limits known [] 0 items).map (·.issues) =
      .ok (issuesOf file limits known entries) :=
  issues_compileEntries_after h [] fun _ => rfl

/-! ## Values -/

/-- Data that are no integer beyond the doubles. -/
def IsRepresentable (d : Data) : Prop := ∀ n, d = .integer n → Number.ofInt? n ≠ none

instance : DecidablePred IsRepresentable
  | .integer n => decidable_of_iff (Number.ofInt? n ≠ none) (by simp [IsRepresentable])
  | .null | .boolean _ | .number _ | .text _ | .date _ | .moment _ | .list _ | .mapping _ =>
    isTrue nofun

/-- A scalar that is representable has a value. -/
theorem toValue_ne_error {d : Data} (h : Shape.scalar.Accepts d) (hd : IsRepresentable d)
    (f : DataFault) : d.toValue ≠ .error f := by
  intro hvalue
  obtain ⟨n, hn, hbeyond, -⟩ := integer_of_toValue_eq_error h hvalue
  exact hd n hn hbeyond

/-! ## Documents -/

/-- A document that has the layout and whose settings are accepted goes by what compiling
    its entries gives. -/
theorem ofDocument_of_compiled {d : Data} {compiled : Compiled}
    (haccepts : layout.Accepts (withoutDates d)) (hlimits : limitsOf (withoutDates d) = .ok limits)
    (hcompiled : compileEntries file limits known [] 0
      (itemsOf ((withoutDates d).field? "rules")) = .ok compiled) :
    (compiled.issues ≠ [] → ofDocument file known d = .error (.issues compiled.issues)) ∧
    (compiled.issues = [] → ofDocument file known d =
      ((valuesOf (entriesOf ((withoutDates d).field? "variables"))).mapError .data).map
        fun defaults => ⟨byPriority compiled.rules, limits, defaults,
          (((withoutDates d).field? "name").bind (·.text?)).getD (stem file)⟩) := by
  have hnames := repeatedName?_nil_eq_none_iff.2
    (nodup_names_byPriority.2 (compiles_of_ok hcompiled).nodup.1)
  unfold ofDocument
  simp only [layoutIssues_eq_nil_iff.2 haccepts, hlimits, hcompiled, Except.mapError, ok_bind,
    RuleSet.ofRules]
  cases compiled.issues with
  | cons issue issues => exact ⟨fun _ => rfl, fun h => absurd h (List.cons_ne_nil _ _)⟩
  | nil =>
    refine ⟨fun h => absurd rfl h, fun _ => ?_⟩
    cases valuesOf (entriesOf ((withoutDates d).field? "variables")) with
    | error f => rfl
    | ok values =>
      simp only [ok_bind, hnames]
      rfl

/-- A document whose entries cannot be read is not loaded. -/
theorem ofDocument_of_unread {d : Data} {f : DataFault} (haccepts : layout.Accepts (withoutDates d))
    (hlimits : limitsOf (withoutDates d) = .ok limits)
    (hcompiled : compileEntries file limits known [] 0
      (itemsOf ((withoutDates d).field? "rules")) = .error f) :
    ofDocument file known d = .error (.data f) := by
  unfold ofDocument
  simp only [layoutIssues_eq_nil_iff.2 haccepts, hlimits, hcompiled, Except.mapError, ok_bind,
    error_bind]

/-- The entries of a document can be read where it has the layout and no integer that a
    rule assigns is beyond the doubles. -/
theorem entries_of_accepts {d : Data} (haccepts : layout.Accepts d)
    (hassigned : ∀ item ∈ itemsOf (d.field? "rules"), ∀ a ∈ entriesOf (item.field? "set"),
      IsRepresentable a.2) :
    ∃ entries, AreReadAs (itemsOf (d.field? "rules")) entries := by
  cases hentries : (itemsOf (d.field? "rules")).mapM entry with
  | ok entries => exact ⟨entries, mapM_eq_ok_iff.1 hentries⟩
  | error f =>
    obtain ⟨item, hitem, hentry⟩ := mem_of_mapM_eq_error hentries
    obtain ⟨a, ha, hvalue⟩ := assigned_of_entry_eq_error hentry
    exact absurd hvalue
      (toValue_ne_error (scalar_of_mem_assigned haccepts hitem ha) (hassigned item hitem a ha) f)

theorem load_eq {source : Source} {d : Data}
    (hdocument : source.document? (normalPath file) = .ok d) :
    load file known source = (ofDocument (normalPath file) known d).mapError .load := by
  simp only [load, hdocument, ok_bind]

/-- Where something is to be told of the entries of a document, these are its issues, and
    else it becomes a rule set, unless a standard value has no value. -/
theorem load_of_entries {source : Source} {d : Data}
    (hdocument : source.document? (normalPath file) = .ok d)
    (haccepts : layout.Accepts (withoutDates d)) (hlimits : limitsOf (withoutDates d) = .ok limits)
    (hentries : AreReadAs (itemsOf ((withoutDates d).field? "rules")) entries) :
    (issuesOf (normalPath file) limits known entries ≠ [] →
      load file known source =
        .error (.load (.issues (issuesOf (normalPath file) limits known entries)))) ∧
    (issuesOf (normalPath file) limits known entries = [] →
      (∃ s, load file known source = .ok s) ∨
      ∃ f, load file known source = .error (.load (.data f)) ∧
        valuesOf (entriesOf ((withoutDates d).field? "variables")) = .error f) := by
  obtain ⟨compiled, hcompiled, hissues⟩ := bind_eq_ok.1 (issues_compileEntries hentries)
  replace hissues : compiled.issues = issuesOf (normalPath file) limits known entries :=
    Except.ok.inj hissues
  obtain ⟨hsome, hnone⟩ := ofDocument_of_compiled haccepts hlimits hcompiled
  rw [load_eq hdocument, ← hissues]
  refine ⟨fun h => by rw [hsome h]; rfl, fun h => ?_⟩
  rw [hnone h]
  cases valuesOf (entriesOf ((withoutDates d).field? "variables")) with
  | error f => exact .inr ⟨f, rfl, rfl⟩
  | ok values => exact .inl ⟨_, rfl⟩

/-- **What is told of the problems of a file.** Where a document has the layout and its
    settings are accepted, its issues are what is told of the problems of each entry, in
    order. Of every entry that has problems the first one is told, and nothing is told that
    is no problem; all are told exactly where there is one only, or where all are unknown
    functions, each of which is one problem however often it is called. -/
theorem load_issues {source : Source} {d : Data}
    (hdocument : source.document? (normalPath file) = .ok d)
    (haccepts : layout.Accepts (withoutDates d)) (hlimits : limitsOf (withoutDates d) = .ok limits)
    (hassigned : ∀ item ∈ itemsOf ((withoutDates d).field? "rules"),
      ∀ a ∈ entriesOf (item.field? "set"), IsRepresentable a.2) :
    ∃ entries, AreReadAs (itemsOf ((withoutDates d).field? "rules")) entries ∧
      (issuesOf (normalPath file) limits known entries ≠ [] →
        load file known source =
          .error (.load (.issues (issuesOf (normalPath file) limits known entries)))) ∧
      (issuesOf (normalPath file) limits known entries = [] →
        ∀ issues, load file known source ≠ .error (.load (.issues issues))) ∧
      ∀ i e, entries[i]? = some e →
        told (problemsAt limits known entries i e) <+: problemsAt limits known entries i e ∧
        (told (problemsAt limits known entries i e) = [] ↔
          problemsAt limits known entries i e = []) ∧
        (told (problemsAt limits known entries i e) = problemsAt limits known entries i e ↔
          (problemsAt limits known entries i e).length ≤ 1 ∨
            ∀ p ∈ problemsAt limits known entries i e, ∃ name, p = .unknownFunction name) ∧
        (e.unknownFunctions limits known).Nodup := by
  obtain ⟨entries, hentries⟩ := entries_of_accepts haccepts hassigned
  obtain ⟨hsome, hnone⟩ := load_of_entries hdocument haccepts hlimits hentries
  refine ⟨entries, hentries, hsome, fun h issues => ?_, fun i e _ =>
    ⟨told_initial _, told_eq_nil_iff, told_problems_eq_iff, RuleEntry.nodup_unknownFunctions⟩⟩
  rcases hnone h with ⟨s, hs⟩ | ⟨f, hf, -⟩
  · rw [hs]
    nofun
  · rw [hf]
    nofun

/-- A document with one rule, neither of whose expressions can be read. -/
def twoUnreadable : Data := .mapping [(.text "rules", .list [.mapping [
  (.text "name", .text "a"), (.text "when", .text "(1"),
  (.text "set", .mapping [(.text "x", .text "1 +")])]])]

/-- It has the layout, and what is told of its rule are its issues. -/
theorem twoUnreadable_told :
    layout.Accepts (withoutDates twoUnreadable) ∧
      limitsOf (withoutDates twoUnreadable) = .ok .standard ∧
      ∃ entries, AreReadAs (itemsOf ((withoutDates twoUnreadable).field? "rules")) entries ∧
        (issuesOf "rules.yaml" .standard (fun _ => false) entries ≠ [] →
          load "rules.yaml" (fun _ => false) (.document twoUnreadable) =
            .error (.load (.issues
              (issuesOf "rules.yaml" .standard (fun _ => false) entries)))) := by
  have haccepts : layout.Accepts (withoutDates twoUnreadable) :=
    layout.misfits_eq_nil_iff.1 (List.eq_nil_of_length_eq_zero (by decide +kernel))
  have hlimits : limitsOf (withoutDates twoUnreadable) = .ok .standard := rfl
  have hfile : normalPath "rules.yaml" = "rules.yaml" := by decide +kernel
  have hdocument : (Source.document twoUnreadable).document? (normalPath "rules.yaml") =
    .ok twoUnreadable := rfl
  obtain ⟨entries, hentries, htold, -⟩ :=
    load_issues hdocument haccepts hlimits (by decide +kernel)
  rw [hfile] at htold
  exact ⟨haccepts, hlimits, entries, hentries, htold⟩

/-- Neither expression can be read, and only the first of them is told. -/
theorem secondProblem_untold :
    (parse .expression Limits.standard.maxNesting "(1").isOk = false ∧
      (parse .expression Limits.standard.maxNesting "1 +").isOk = false ∧
      (load "rules.yaml" (fun _ => false) (.document twoUnreadable)).map (fun _ => ()) =
        .error (.load (.issues [⟨"rules.yaml",
          "Rule 'a': Expected ')' at line 1, column 3", "rules[0]"⟩])) := by
  refine ⟨?_, ?_, ?_⟩ <;> decide +kernel

end RuleFile

end Rulebook

/-
  Dependence — what an evaluation depends on: the variables that the tree reads,
  and no others.

  * `ChangeAlike s t s' t'`: from `s` to `s'` and from `t` to `t'` the same is
    reported, and each variable is bound alike or left as it was in both.
  * `DependsOn names step`: in two stores that bind the names alike, the step
    gives the same answer and changes both alike; steps that are put together of
    such steps are such steps.
  * `Node.dependsOn_evaluate`: the evaluation of a tree depends on the variables
    that it refers to, where functions depend on their arguments only.
  * `Filter.accepts_eq`, `Filter.accepts_overflow`: what a filter says of a record
    is what its clause says with every field bound that has a value, unless a field
    that the clause reads is an integer beyond the doubles: this breaks it down.
  * `outcome_depends_on_references` puts these together.
-/
import Mathlib.Data.List.Nodup
import Mathlib.Data.String.Basic
import Rulebook.Proofs.Steps
import Rulebook.Proofs.Breakdowns
import Rulebook.Filter

namespace Rulebook

open Eval

/-! ## Two runs -/

section
variable {ω : Type}

/-- A function whose answer depends on its arguments only. -/
def Definition.IsPure (d : Definition ω) : Prop :=
  ∀ args host host', (d.run args host).1 = (d.run args host').1

/-- Functions that depend on their arguments only. -/
def Registry.IsPure (functions : Registry ω) : Prop := ∀ d ∈ functions, d.IsPure

/-- Two stores in which some names are bound alike, or unbound alike. -/
def BoundAlike (names : List String) (s t : Store ω) : Prop :=
  ∀ name ∈ names, s.bindings.get? name = t.bindings.get? name

theorem BoundAlike.mono {names names' : List String} {s t : Store ω} (h : BoundAlike names' s t)
    (hsub : names ⊆ names') : BoundAlike names s t := fun name hname => h name (hsub hname)

/-- What leads from `s` to `s'` and from `t` to `t'` reports the same, and each
    variable is bound alike after it, or is as it was before it in both. -/
structure ChangeAlike (s t s' t' : Store ω) : Prop where
  journal : ∃ notices, s'.journal = s.journal ++ notices ∧ t'.journal = t.journal ++ notices
  bindings : ∀ name, s'.bindings.get? name = t'.bindings.get? name ∨
    s'.bindings.get? name = s.bindings.get? name ∧ t'.bindings.get? name = t.bindings.get? name

theorem ChangeAlike.refl (s t : Store ω) : ChangeAlike s t s t :=
  ⟨⟨[], by simp⟩, fun _ => .inr ⟨rfl, rfl⟩⟩

theorem ChangeAlike.trans {s t s' t' s'' t'' : Store ω} (h : ChangeAlike s t s' t')
    (h' : ChangeAlike s' t' s'' t'') : ChangeAlike s t s'' t'' where
  journal := by
    obtain ⟨first, hs, ht⟩ := h.journal
    obtain ⟨second, hs', ht'⟩ := h'.journal
    exact ⟨first ++ second, by simp [hs', hs], by simp [ht', ht]⟩
  bindings name := by
    rcases h'.bindings name with heq | ⟨hs', ht'⟩
    · exact .inl heq
    · rw [hs', ht']
      exact h.bindings name

/-- Names that are bound alike stay so. -/
theorem ChangeAlike.boundAlike {names : List String} {s t s' t' : Store ω}
    (h : ChangeAlike s t s' t') (hst : BoundAlike names s t) : BoundAlike names s' t' := by
  intro name hname
  rcases h.bindings name with heq | ⟨hs, ht⟩
  · exact heq
  · rw [hs, ht]
    exact hst name hname

/-- A change in which no variable is touched and the same is reported. -/
theorem changeAlike_of_report {s t s' t' : Store ω} (notices : Journal)
    (hs : s'.bindings = s.bindings ∧ s'.journal = s.journal ++ notices)
    (ht : t'.bindings = t.bindings ∧ t'.journal = t.journal ++ notices) :
    ChangeAlike s t s' t' :=
  ⟨⟨notices, hs.2, ht.2⟩, fun _ => .inr ⟨by rw [hs.1], by rw [ht.1]⟩⟩

/-! ## Steps that depend on some names -/

variable {ε α β : Type} {names : List String}

/-- A step that depends on some names only. -/
def DependsOn (names : List String) (step : ExceptT ε (StateM (Store ω)) α) : Prop :=
  ∀ s t, BoundAlike names s t →
    (step.run s).1 = (step.run t).1 ∧ ChangeAlike s t (step.run s).2 (step.run t).2

theorem DependsOn.mono {names' : List String} {step : ExceptT ε (StateM (Store ω)) α}
    (h : DependsOn names step) (hsub : names ⊆ names') : DependsOn names' step :=
  fun s t hst => h s t (hst.mono hsub)

theorem dependsOn_pure (v : α) :
    DependsOn names (pure v : ExceptT ε (StateM (Store ω)) α) :=
  fun s t _ => ⟨rfl, .refl s t⟩

theorem dependsOn_throw (f : Failure) : DependsOn names (throw f : Eval ω α) :=
  fun s t _ => ⟨rfl, .refl s t⟩

theorem dependsOn_ofAnswer (answer : Except Failure α) :
    DependsOn names (ofAnswer answer : Eval ω α) :=
  fun s t _ => ⟨rfl, .refl s t⟩

/-- The second of two steps starts from stores that still bind the names alike, and
    from a value that the first one has returned. -/
theorem DependsOn.bind_returned {step : ExceptT ε (StateM (Store ω)) α}
    {next : α → ExceptT ε (StateM (Store ω)) β} (h : DependsOn names step)
    (hnext : ∀ s v, (step.run s).1 = .ok v → DependsOn names (next v)) :
    DependsOn names (step >>= next) := by
  intro s t hst
  obtain ⟨hanswer, hchange⟩ := h s t hst
  rw [run_bind, run_bind]
  rcases hs : step.run s with ⟨f | v, s'⟩ <;> rcases ht : step.run t with ⟨f' | v', t'⟩ <;>
    simp only [hs, ht, Except.error.injEq, Except.ok.injEq, reduceCtorEq] at hanswer hchange
  · subst hanswer
    exact ⟨rfl, hchange⟩
  · subst hanswer
    have hv : (step.run s).1 = .ok v := congrArg Prod.fst hs
    obtain ⟨hanswer', hchange'⟩ := hnext s v hv s' t' (hchange.boundAlike hst)
    exact ⟨hanswer', hchange.trans hchange'⟩

theorem DependsOn.bind {step : ExceptT ε (StateM (Store ω)) α}
    {next : α → ExceptT ε (StateM (Store ω)) β} (h : DependsOn names step)
    (hnext : ∀ v, DependsOn names (next v)) : DependsOn names (step >>= next) :=
  h.bind_returned fun _ v _ => hnext v

theorem DependsOn.located {step : Eval ω α} (h : DependsOn names step) (p : Option ℕ) :
    DependsOn names (located p step) := by
  intro s t hst
  obtain ⟨hanswer, hchange⟩ := h s t hst
  rw [run_located, run_located]
  exact ⟨congrArg (Except.mapError (Failure.locatedAt p)) hanswer, hchange⟩

theorem dependsOn_report (notices : Journal) :
    DependsOn names (report notices : Eval ω Unit) :=
  fun _ _ _ => ⟨rfl, changeAlike_of_report notices ⟨rfl, rfl⟩ ⟨rfl, rfl⟩⟩

theorem dependsOn_variableValue {name : String} (h : name ∈ names) :
    DependsOn names (variableValue name : Eval ω Value) := by
  intro s t hst
  rw [run_variableValue, run_variableValue, hst name h]
  exact ⟨rfl, .refl s t⟩

/-- A variable just assigned is bound alike, whatever it was before. -/
theorem dependsOn_assign (name : String) (v : Value) :
    DependsOn names (assign name v : Eval ω Value) := by
  have hrun : ∀ s : Store ω, (assign name v).run s =
      (.ok v, { s with bindings := s.bindings.set name v }) := fun _ => rfl
  intro s t _
  rw [hrun, hrun]
  refine ⟨rfl, ⟨[], by simp⟩, fun other => ?_⟩
  simp only [Bindings.get?_set]
  split_ifs
  · exact .inl rfl
  · exact .inr ⟨rfl, rfl⟩

theorem dependsOn_invoke {d : Definition ω} (h : d.IsPure) (args : List Value) :
    DependsOn names (invoke d args) := by
  intro s t _
  rw [run_invoke, run_invoke, h args s.host t.host]
  exact ⟨rfl, changeAlike_of_report [] ⟨rfl, by simp⟩ ⟨rfl, by simp⟩⟩

theorem dependsOn_call {functions : Registry ω} (h : functions.IsPure) (name : String)
    (args : List Value) : DependsOn names (call functions name args) := by
  unfold call
  cases hd : functions.lookup? name with
  | none => exact dependsOn_throw _
  | some d =>
    have hpure : d.IsPure := h d (List.mem_of_find?_eq_some hd)
    show DependsOn names (if d.accepts args.length then _ else _)
    split_ifs
    · exact (dependsOn_invoke hpure args).bind fun _ => dependsOn_ofAnswer _
    · exact dependsOn_throw _

theorem inherited_dependsOn (env : Environment ω) (hpure : env.functions.IsPure) :
    Inherited env fun α => DependsOn (α := α) names where
  value v := dependsOn_pure v
  failure _ := dependsOn_throw _
  bind h hnext := h.bind hnext
  located p h := h.located p
  report notices := dependsOn_report notices
  assign name v := dependsOn_assign name v
  unary _ _ := dependsOn_ofAnswer _
  binary _ _ _ := dependsOn_ofAnswer _
  call name args := dependsOn_call hpure name args

/-- **The evaluation of a tree depends on the variables that it refers to.** -/
theorem Node.dependsOn_evaluate (env : Environment ω) (hpure : env.functions.IsPure) (x : Node) :
    DependsOn x.referencedVariables (x.evaluate env) :=
  (inherited_dependsOn env hpure).evaluate fun _ hname => dependsOn_variableValue hname

end

/-! ## Names in order -/

theorem mem_eraseRepsBy_loop {a : String} {xs : List String} : ∀ {x : String} {acc : List String},
    a ∈ List.eraseRepsBy.loop (· == ·) x xs acc ↔ a = x ∨ a ∈ xs ∨ a ∈ acc := by
  induction xs with
  | nil => simp [List.eraseRepsBy.loop, or_comm]
  | cons y ys ih =>
    intro x acc
    rw [List.eraseRepsBy.loop]
    split
    · next h =>
      obtain rfl := eq_of_beq h
      rw [ih, List.mem_cons]
      tauto
    · rw [ih, List.mem_cons, List.mem_cons]
      tauto

/-- Putting names in order loses none and adds none. -/
theorem mem_sortedNames {name : String} {names : List String} :
    name ∈ sortedNames names ↔ name ∈ names := by
  have hsort : name ∈ names.mergeSort (fun a b => a ≤ b) ↔ name ∈ names := List.mem_mergeSort
  rw [sortedNames, List.eraseReps, ← hsort]
  cases names.mergeSort (fun a b => a ≤ b) with
  | nil => simp [List.eraseRepsBy]
  | cons x xs => simp [List.eraseRepsBy, mem_eraseRepsBy_loop]

theorem nodup_eraseRepsBy_loop {xs : List String} : ∀ {x : String} {acc : List String},
    (x :: xs).Pairwise (· ≤ ·) → (∀ y ∈ acc, y < x) → acc.Nodup →
      (List.eraseRepsBy.loop (· == ·) x xs acc).Nodup := by
  induction xs with
  | nil =>
    intro x acc _ hlt hacc
    rw [List.eraseRepsBy.loop, List.nodup_reverse, List.nodup_cons]
    exact ⟨fun hmem => lt_irrefl x (hlt x hmem), hacc⟩
  | cons y ys ih =>
    intro x acc hsorted hlt hacc
    obtain ⟨hle, hsorted⟩ := List.pairwise_cons.1 hsorted
    rw [List.eraseRepsBy.loop]
    split
    · next heq =>
      obtain rfl := eq_of_beq heq
      exact ih hsorted hlt hacc
    · next hne =>
      have hxy : x < y := lt_of_le_of_ne (hle y (by simp)) (by simpa using hne)
      have hfresh : x ∉ acc := fun hmem => lt_irrefl x (hlt x hmem)
      refine ih hsorted (fun z hz => ?_) (List.nodup_cons.2 ⟨hfresh, hacc⟩)
      rcases List.mem_cons.1 hz with rfl | hz
      exacts [hxy, (hlt z hz).trans hxy]

/-- Names that were put in order stand there once each. -/
theorem nodup_sortedNames (names : List String) : (sortedNames names).Nodup := by
  have htrans : ∀ a b c : String, decide (a ≤ b) → decide (b ≤ c) → decide (a ≤ c) := by
    simpa only [decide_eq_true_eq] using fun a b c => le_trans
  have htotal : ∀ a b : String, decide (a ≤ b) || decide (b ≤ a) := by
    simpa only [Bool.or_eq_true, decide_eq_true_eq] using le_total
  have hsorted : (names.mergeSort fun a b => a ≤ b).Pairwise (· ≤ ·) :=
    (List.pairwise_mergeSort htrans htotal names).imp (by simp)
  rw [sortedNames, List.eraseReps]
  cases hnames : names.mergeSort (fun a b => a ≤ b) with
  | nil => simp [List.eraseRepsBy]
  | cons x xs =>
    rw [hnames] at hsorted
    exact nodup_eraseRepsBy_loop hsorted (by simp) (by simp)

/-! ## Filters -/

/-- The value of a field, if it has one. -/
def Record.value? (record : Record) (name : String) : Option Value :=
  (record.lookup name).bind fun d => d.toValue.toOption

/-- The fields of a record that have a value, bound to it. -/
def Record.values (record : Record) : Bindings :=
  record.filterMap fun field => (record.value? field.1).map (field.1, ·)

theorem lookup_filterMap {g : String → Option Value} {record : Record} {name : String}
    (h : record.lookup name = none → g name = none) :
    (record.filterMap fun field => (g field.1).map (field.1, ·)).lookup name = g name := by
  induction record with
  | nil => exact (h rfl).symm
  | cons field rest ih =>
    obtain ⟨key, d⟩ := field
    rw [List.lookup_cons] at h
    by_cases hkey : name = key
    · subst hkey
      cases hg : g name with
      | some v => simp [hg]
      | none =>
        rw [List.filterMap_cons_none (by simp [hg]), ih fun _ => hg, hg]
    · rw [beq_false_of_ne hkey] at h
      rw [List.filterMap_cons]
      cases g key with
      | none => exact ih h
      | some v =>
        simp only [Option.map_some, List.lookup_cons, beq_false_of_ne hkey]
        exact ih h

theorem Record.get?_values (record : Record) (name : String) :
    record.values.get? name = record.value? name :=
  lookup_filterMap fun h => by rw [value?, h]; rfl

/-- A field that holds an integer beyond the doubles. -/
def Record.Overflows (record : Record) (name : String) : Prop :=
  ∃ d, record.lookup name = some d ∧ d.toValue = .error .integerTooLarge

namespace Filter

theorem bindField_eq_ok {record : Record} {name : String} (h : ¬ record.Overflows name)
    (b : Bindings) :
    bindField record b name = .ok ((record.value? name).elim b (b.set name)) := by
  unfold bindField Record.value?
  cases hd : record.lookup name with
  | none => rfl
  | some d =>
    cases hv : d.toValue with
    | ok v => simp [hv, Except.toOption]
    | error f =>
      cases f with
      | unsupported kind => simp [hv, Except.toOption]
      | integerTooLarge => exact absurd ⟨d, hd, hv⟩ h

theorem bindField_eq_error {record : Record} {name : String} (h : record.Overflows name)
    (b : Bindings) : bindField record b name = .error (.data .integerTooLarge) := by
  obtain ⟨d, hd, hv⟩ := h
  simp [bindField, hd, hv]

/-- Fields without an overflow are bound to their values, over what was bound before. -/
theorem foldlM_bindField_eq_ok {record : Record} {names : List String}
    (h : ∀ name ∈ names, ¬ record.Overflows name) : ∀ b : Bindings,
      ∃ b', names.foldlM (bindField record) b = .ok b' ∧ ∀ name, b'.get? name =
        if name ∈ names then (record.value? name).or (b.get? name) else b.get? name := by
  induction names with
  | nil => exact fun b => ⟨b, rfl, by simp⟩
  | cons first rest ih =>
    intro b
    obtain ⟨b', hb', hget⟩ := ih (fun name hname => h name (by simp [hname]))
      ((record.value? first).elim b (b.set first))
    refine ⟨b', ?_, fun name => ?_⟩
    · rw [List.foldlM_cons, bindField_eq_ok (h first (by simp))]
      exact hb'
    · rw [hget]
      cases hv : record.value? first with
      | none => by_cases hname : name = first <;> simp [hname, hv]
      | some v => by_cases hname : name = first <;> simp [hname, hv, Bindings.get?_set]

theorem foldlM_bindField_eq_error {record : Record} {names : List String}
    (h : ∃ name ∈ names, record.Overflows name) : ∀ b : Bindings,
      names.foldlM (bindField record) b = .error (.data .integerTooLarge) := by
  induction names with
  | nil => simp at h
  | cons first rest ih =>
    intro b
    rw [List.foldlM_cons]
    by_cases hfirst : record.Overflows first
    · rw [bindField_eq_error hfirst]
      rfl
    · obtain ⟨name, hname, ho⟩ := h
      have hrest : ∃ name ∈ rest, record.Overflows name := by
        rcases List.mem_cons.1 hname with rfl | hname
        exacts [absurd ho hfirst, ⟨name, hname, ho⟩]
      rw [bindField_eq_ok hfirst]
      exact ih hrest _

variable {ω : Type} (f : Filter) (functions : Registry ω) {record : Record}

/-- The answer of the clause in bindings. -/
def answer (b : Bindings) (host : ω) : Except Failure Value :=
  (((Context.empty functions host).withBindings b).evaluate f.limits f.clause).1

/-- Binding the fields that the clause reads is as good as binding all. -/
theorem accepts_eq (hpure : functions.IsPure)
    (h : ∀ name ∈ f.clause.referencedVariables, ¬ record.Overflows name) (host : ω) :
    (f.accepts functions record host).1 = f.verdict (f.answer functions record.values host) := by
  have hfields : ∀ name ∈ f.fields, ¬ record.Overflows name := fun name hname =>
    h name (mem_sortedNames.1 hname)
  obtain ⟨b', hb', hget⟩ := foldlM_bindField_eq_ok hfields []
  have halike : BoundAlike f.clause.referencedVariables
      (⟨b', [], host⟩ : Store ω) ⟨record.values, [], host⟩ := by
    intro name hname
    have hempty : Bindings.get? [] name = none := rfl
    have hfield : name ∈ f.fields := mem_sortedNames.2 hname
    show b'.get? name = record.values.get? name
    rw [hget, if_pos hfield, hempty, Option.or_none, record.get?_values]
  have hrun : f.bindings record = .ok b' := hb'
  have hanswer := (Node.dependsOn_evaluate ⟨f.limits, functions⟩ hpure f.clause
    _ _ halike).1
  unfold accepts
  rw [hrun]
  exact congrArg f.verdict hanswer

/-- A field that the clause reads breaks the filter down if it is an integer beyond
    the doubles. -/
theorem accepts_overflow
    (h : ∃ name ∈ f.clause.referencedVariables, record.Overflows name) (host : ω) :
    (f.accepts functions record host).1 = .error (.breakdown (.data .integerTooLarge)) := by
  have hfields : ∃ name ∈ f.fields, record.Overflows name := by
    obtain ⟨name, hname, ho⟩ := h
    exact ⟨name, mem_sortedNames.2 hname, ho⟩
  have hrun : f.bindings record = .error (.data .integerTooLarge) :=
    foldlM_bindField_eq_error hfields []
  unfold accepts
  rw [hrun]

end Filter

/-- **What is not referred to does not matter.** In contexts with the same pure
    functions that bind the variables that a tree refers to alike, the tree has the
    same outcome and makes the same changes. So a filter says of a record what its
    clause says with every field bound that has a value, save that it breaks down
    where a field that the clause reads is an integer beyond the doubles. -/
theorem outcome_depends_on_references {ω : Type} :
    (∀ (x : Node) (limits : Limits) (functions : Registry ω), functions.IsPure →
      ∀ s t : Store ω, BoundAlike x.referencedVariables s t →
        ((Context.mk functions s).evaluate limits x).1 =
            ((Context.mk functions t).evaluate limits x).1 ∧
          ChangeAlike s t ((Context.mk functions s).evaluate limits x).2.store
            ((Context.mk functions t).evaluate limits x).2.store) ∧
      ∀ (f : Filter) (functions : Registry ω), functions.IsPure →
        ∀ (record : Record) (host : ω),
          ((∃ name ∈ f.clause.referencedVariables, record.Overflows name) →
            (f.accepts functions record host).1 = .error (.breakdown (.data .integerTooLarge))) ∧
          ((∀ name ∈ f.clause.referencedVariables, ¬ record.Overflows name) →
            (f.accepts functions record host).1 =
              f.verdict (f.answer functions record.values host)) := by
  refine ⟨fun x limits functions hpure s t hst => ?_, fun f functions hpure record host =>
    ⟨fun h => f.accepts_overflow functions h host, fun h => ?_⟩⟩
  · exact Node.dependsOn_evaluate ⟨limits, functions⟩ hpure x s t hst
  · exact f.accepts_eq functions hpure h host

/-- A filter whose clause is a name. -/
def readsOnly (name : String) : Filter := ⟨name, .reference name none, .standard, false⟩

/-- A record with an integer beyond the doubles, and a field that is true. -/
def oversized : Record := [("size", .integer beyondDoubles), ("kept", .boolean true)]

/-- Neither a variable nor a field beyond the doubles matters to a clause that does
    not read it. -/
theorem oversized_kept :
    (((Context.mk ([] : Registry Unit) ⟨[("kept", .null), ("size", .null)], [], ()⟩).evaluate
        .standard (readsOnly "kept").clause).1 =
      ((Context.mk [] ⟨[("kept", .null)], [], ()⟩).evaluate .standard
        (readsOnly "kept").clause).1) ∧
    ((readsOnly "kept").accepts ([] : Registry Unit) oversized ()).1 =
      (readsOnly "kept").verdict ((readsOnly "kept").answer [] oversized.values ()) := by
  have hpure : Registry.IsPure ([] : Registry Unit) := fun d hd => by cases hd
  refine ⟨(outcome_depends_on_references.1 _ .standard [] hpure _ _ ?_).1,
    (outcome_depends_on_references.2 (readsOnly "kept") [] hpure oversized ()).2 ?_⟩
  · intro name hname
    obtain rfl : name = "kept" := List.mem_singleton.1 hname
    rfl
  · rintro name hname ⟨d, hd, hoverflow⟩
    obtain rfl : name = "kept" := List.mem_singleton.1 hname
    obtain rfl : d = .boolean true := by cases hd; rfl
    cases hoverflow

/-- A clause that reads the field breaks down, where it does not match without a value
    of the field. -/
theorem oversized_size :
    ((readsOnly "size").accepts ([] : Registry Unit) oversized ()).1 =
        .error (.breakdown (.data .integerTooLarge)) ∧
      (readsOnly "size").verdict
        ((readsOnly "size").answer ([] : Registry Unit) oversized.values ()) = .ok false := by
  have hread : ∃ name ∈ (readsOnly "size").clause.referencedVariables, oversized.Overflows name :=
    ⟨"size", by decide, _, rfl, toValue_beyondDoubles⟩
  exact ⟨(readsOnly "size").accepts_overflow [] hread (), by decide +kernel⟩

end Rulebook

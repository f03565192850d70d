/-
  Fitting — what it means that a document has a shape.

  * `perm_sortBy`, `sortBy_error`: sorting by an order in which some things cannot be
    compared loses nothing, and fails at two things of the list.
  * `Shape.Accepts s d`: the data `d` have the shape `s`, shape by shape.
  * `Shape.misfits_eq_nil_iff`: nothing is found amiss exactly where they have it.
  * `RuleFile.layoutIssues_cases`: the issues of a document are those found, unless two
    of their places cannot be compared or an integer in one has too many digits;
    `RuleFile.layoutIssues_eq_nil_iff`: there are none exactly where it has the layout.
-/
import Mathlib.Data.List.Perm.Basic
import Rulebook.Proofs.Reading
import Rulebook.RuleFile.Layout

namespace Rulebook

/-! ## Sorting -/

section
variable {α ε : Type} {before : α → α → Except ε Bool} {e : ε}

theorem perm_insertSorted {sorted result : List α} {x : α}
    (h : insertSorted before sorted x = .ok result) : result.Perm (x :: sorted) := by
  obtain ⟨place, -, h⟩ := bind_eq_ok.1 h
  cases h
  exact List.perm_insertIdx _ _ (Nat.min_le_right _ _)

theorem perm_foldlM_insertSorted {more : List α} : ∀ {sorted result : List α},
    more.foldlM (insertSorted before) sorted = .ok result → result.Perm (sorted ++ more) := by
  induction more with
  | nil =>
    intro sorted result h
    cases h
    simp
  | cons x more ih =>
    intro sorted result h
    obtain ⟨next, hnext, h⟩ := bind_eq_ok.1 h
    have hinserted : (next ++ more).Perm (x :: sorted ++ more) :=
      (perm_insertSorted hnext).append_right more
    exact (ih h).trans (hinserted.trans List.perm_middle.symm)

/-- Sorting loses nothing. -/
theorem perm_sortBy {xs result : List α} (h : sortBy before xs = .ok result) :
    result.Perm xs := by
  match xs with
  | [] => cases h; rfl
  | [_] => cases h; rfl
  | x :: y :: rest =>
    obtain ⟨descending, -, h⟩ := bind_eq_ok.1 h
    obtain ⟨n, -, h⟩ := bind_eq_ok.1 h
    refine (perm_foldlM_insertSorted h).trans ?_
    have hrun : (if descending then ((x :: y :: rest).take (n + 1)).reverse
        else (x :: y :: rest).take (n + 1)).Perm ((x :: y :: rest).take (n + 1)) := by
      split_ifs
      exacts [List.reverse_perm _, List.Perm.refl _]
    exact (hrun.append_right _).trans (by rw [List.take_append_drop])

/-- Two things of a list cannot be compared. -/
def Incomparable (before : α → α → Except ε Bool) (e : ε) (xs : List α) : Prop :=
  ∃ x ∈ xs, ∃ y ∈ xs, before x y = .error e

theorem Incomparable.mono {xs ys : List α} (h : Incomparable before e xs) (hsub : xs ⊆ ys) :
    Incomparable before e ys := by
  obtain ⟨x, hx, y, hy, he⟩ := h
  exact ⟨x, hsub hx, y, hsub hy, he⟩

theorem placeBetween_error {x : α} {sorted : List α} {low high : ℕ}
    (h : placeBetween before x sorted low high = .error e) :
    ∃ y ∈ sorted, before x y = .error e := by
  fun_induction placeBetween before x sorted low high with
  | case1 low high hlt middle y hy ihLow ihHigh =>
    rcases bind_eq_error.1 h with h | ⟨isBefore, -, h⟩
    · exact ⟨y, List.mem_of_getElem? hy, h⟩
    · cases isBefore with
      | true => exact ihLow h
      | false => exact ihHigh h
  | case2 => cases h
  | case3 => cases h

theorem foldlM_insertSorted_error {more : List α} : ∀ {sorted : List α},
    more.foldlM (insertSorted before) sorted = .error e →
      Incomparable before e (sorted ++ more) := by
  induction more with
  | nil =>
    intro sorted h
    cases h
  | cons x more ih =>
    intro sorted h
    rcases bind_eq_error.1 h with h | ⟨next, hnext, h⟩
    · rcases bind_eq_error.1 h with h | ⟨place, -, h⟩
      · obtain ⟨y, hy, he⟩ := placeBetween_error h
        exact ⟨x, by simp, y, by simp [hy], he⟩
      · cases h
    · have hperm : (next ++ more).Perm (sorted ++ x :: more) :=
        ((perm_insertSorted hnext).append_right more).trans List.perm_middle.symm
      exact (ih h).mono hperm.subset

theorem runLength_error {descending : Bool} {xs : List α} : ∀ {x : α},
    runLength before descending x xs = .error e → Incomparable before e (x :: xs) := by
  induction xs with
  | nil =>
    intro x h
    cases h
  | cons y rest ih =>
    intro x h
    rcases bind_eq_error.1 h with h | ⟨isBefore, -, h⟩
    · exact ⟨y, by simp, x, by simp, h⟩
    · split_ifs at h
      · rcases bind_eq_error.1 h with h | ⟨n, -, h⟩
        · exact (ih h).mono (List.subset_cons_self _ _)
        · cases h
      · cases h

/-- Sorting fails at two things that cannot be compared. -/
theorem sortBy_error {xs : List α} (h : sortBy before xs = .error e) :
    Incomparable before e xs := by
  match xs with
  | [] => cases h
  | [_] => cases h
  | x :: y :: rest =>
    rcases bind_eq_error.1 h with h | ⟨descending, -, h⟩
    · exact ⟨y, by simp, x, by simp, h⟩
    · rcases bind_eq_error.1 h with h | ⟨n, -, h⟩
      · exact runLength_error h
      · refine (foldlM_insertSorted_error h).mono fun z hz => ?_
        rcases List.mem_append.1 hz with hz | hz
        · split_ifs at hz
          · exact List.mem_of_mem_take (List.mem_reverse.1 hz)
          · exact List.mem_of_mem_take hz
        · exact List.mem_of_mem_drop hz

end

/-! ## Shapes -/

/-- Data of a shape. -/
inductive Shape.Accepts : Shape → Data → Prop
  | scalar {k : Kind} {d : Data} : k ∈ Kind.scalars → k.holds d → Accepts .scalar d
  | text (s : String) : Accepts .text (.text s)
  | someText {s : String} : s.isEmpty = false → Accepts .someText (.text s)
  | name {form : NameForm} {s : String} : form.accepts s → Accepts (.name form) (.text s)
  | integer {least : Option Int} {n : Int} : (∀ m, least = some m → m ≤ n) →
      Accepts (.whole least) (.integer n)
  | number {least : Option Int} {x : Float} : Number.isWhole x →
      (∀ m, least = some m → ¬ x < Number.ofInt m) → Accepts (.whole least) (.number x)
  | list {items : Shape} {ds : List Data} : (∀ d ∈ ds, Accepts items d) →
      Accepts (.list items) (.list ds)
  | record {required : List String} {fields : List (String × Shape)}
      {entries : List (Data × Data)} :
      (∀ e ∈ entries, ∃ field ∈ fields, e.1 = .text field.1) →
      (∀ name ∈ required, ((Data.mapping entries).field? name).isSome) →
      (∀ field ∈ fields, ∀ d, (Data.mapping entries).field? field.1 = some d →
        Accepts field.2 d) →
      Accepts (.record required fields) (.mapping entries)
  | mapping {keys : Option NameForm} {values : Shape} {entries : List (Data × Data)} :
      (∀ form, keys = some form → ∀ e ∈ entries, ∀ s, e.1 = .text s → form.accepts s) →
      (∀ e ∈ entries, Accepts values e.2) → Accepts (.mapping keys values) (.mapping entries)

theorem kindMisfits_eq_nil_iff {kinds : List Kind} {d : Data} :
    kindMisfits kinds d = [] ↔ ∃ k ∈ kinds, k.holds d := by
  unfold kindMisfits
  split_ifs with h
  · simpa using h
  · simpa using h

theorem nameMisfits_eq_nil_iff {form : NameForm} {d : Data} :
    nameMisfits form d = [] ↔ ∀ s, d = .text s → form.accepts s := by
  cases d <;> simp [nameMisfits]

theorem unexpectedMisfits_eq_nil_iff {known : List String} {entries : List (Data × Data)} :
    unexpectedMisfits known entries = [] ↔ ∀ e ∈ entries, ∃ name ∈ known, e.1 = .text name := by
  unfold unexpectedMisfits
  extract_lets isKnown
  have hkey : ∀ key, isKnown key = true ↔ ∃ name ∈ known, key = .text name := by
    intro key
    cases key <;> simp [isKnown]
  have hfilter : (entries.map (·.1)).filter (fun key => !isKnown key) = [] ↔
      ∀ e ∈ entries, ∃ name ∈ known, e.1 = .text name := by
    rw [List.filter_eq_nil_iff, List.forall_mem_map]
    exact forall₂_congr fun e _ => by rw [← hkey e.1]; simp
  rw [← hfilter]
  split
  · next hnone => simp [hnone]
  · next hsome => simpa using hsome

theorem missingMisfits_eq_nil_iff {required : List String} {d : Data} :
    missingMisfits required d = [] ↔ ∀ name ∈ required, (d.field? name).isSome := by
  simp [missingMisfits, List.filter_eq_nil_iff, Option.isSome_iff_ne_none]

section
variable {d : Data}

theorem misfits_scalar : Shape.scalar.misfits d = [] ↔ Shape.scalar.Accepts d := by
  refine kindMisfits_eq_nil_iff.trans ?_
  constructor
  · rintro ⟨k, hk, hd⟩
    exact .scalar hk hd
  · intro h
    cases h with
    | scalar hk hd => exact ⟨_, hk, hd⟩

theorem misfits_text : Shape.text.misfits d = [] ↔ Shape.text.Accepts d := by
  refine kindMisfits_eq_nil_iff.trans ?_
  constructor
  · intro h
    cases d <;> simp [Kind.holds] at h
    exact .text _
  · intro h
    cases h with
    | text s => exact ⟨.text, by simp, rfl⟩

theorem misfits_someText : Shape.someText.misfits d = [] ↔ Shape.someText.Accepts d := by
  constructor
  · intro h
    cases d <;> simp [Shape.misfits, kindMisfits, Kind.holds] at h
    exact .someText (by simpa using h)
  · intro h
    cases h with
    | someText hs => simp only [Shape.misfits, hs, Bool.false_eq_true, if_false]

theorem misfits_name {form : NameForm} :
    (Shape.name form).misfits d = [] ↔ (Shape.name form).Accepts d := by
  change kindMisfits [.text] d ++ nameMisfits form d = [] ↔ _
  rw [List.append_eq_nil_iff, kindMisfits_eq_nil_iff, nameMisfits_eq_nil_iff]
  constructor
  · rintro ⟨hkind, hname⟩
    cases d <;> simp [Kind.holds] at hkind
    exact .name (hname _ rfl)
  · intro h
    cases h with
    | name hs =>
      refine ⟨⟨.text, by simp, rfl⟩, ?_⟩
      rintro s ⟨⟩
      exact hs

theorem misfits_whole {least : Option Int} :
    (Shape.whole least).misfits d = [] ↔ (Shape.whole least).Accepts d := by
  change kindMisfits [.whole] d ++ leastMisfits least d = [] ↔ _
  rw [List.append_eq_nil_iff, kindMisfits_eq_nil_iff]
  constructor
  · rintro ⟨hkind, hleast⟩
    cases d <;> simp [Kind.holds] at hkind
    · refine .integer ?_
      rintro m rfl
      simpa [leastMisfits] using hleast
    · refine .number hkind ?_
      rintro m rfl
      simpa [leastMisfits] using hleast
  · intro h
    cases h with
    | integer hleast =>
      refine ⟨⟨.whole, by simp, rfl⟩, ?_⟩
      cases least with
      | none => rfl
      | some m => simpa [leastMisfits] using hleast m rfl
    | number hx hleast =>
      refine ⟨⟨.whole, by simp, hx⟩, ?_⟩
      cases least with
      | none => rfl
      | some m => simpa [leastMisfits] using hleast m rfl

theorem misfits_list {items : Shape} (h : ∀ {d}, items.misfits d = [] ↔ items.Accepts d) :
    (Shape.list items).misfits d = [] ↔ (Shape.list items).Accepts d := by
  constructor
  · intro hnone
    cases d <;> simp [Shape.misfits, kindMisfits, Kind.holds] at hnone
    refine .list fun d hd => h.1 ?_
    obtain ⟨i, hi⟩ := List.mem_iff_getElem?.1 hd
    exact hnone d i (List.mem_zipIdx_iff_getElem?.2 hi)
  · intro haccepts
    cases haccepts with
    | list hds =>
      simp only [Shape.misfits, List.flatMap_eq_nil_iff, List.map_eq_nil_iff]
      intro e he
      exact h.2 (hds e.1 (List.fst_mem_of_mem_zipIdx he))

theorem misfits_record {required : List String} {fields : List (String × Shape)}
    (h : fieldMisfits fields d = [] ↔
      ∀ field ∈ fields, ∀ x, d.field? field.1 = some x → field.2.Accepts x) :
    (Shape.record required fields).misfits d = [] ↔
      (Shape.record required fields).Accepts d := by
  constructor
  · intro hnone
    cases d with
    | mapping entries =>
      simp only [Shape.misfits, List.append_eq_nil_iff, unexpectedMisfits_eq_nil_iff,
        missingMisfits_eq_nil_iff, h] at hnone
      obtain ⟨⟨hkeys, hrequired⟩, hfields⟩ := hnone
      refine .record (fun e he => ?_) hrequired hfields
      obtain ⟨name, hname, hkey⟩ := hkeys e he
      obtain ⟨field, hfield, rfl⟩ := List.mem_map.1 hname
      exact ⟨field, hfield, hkey⟩
    | _ => simp [Shape.misfits, kindMisfits, Kind.holds] at hnone
  · intro haccepts
    cases haccepts with
    | record hkeys hrequired hfields =>
      simp only [Shape.misfits, List.append_eq_nil_iff, unexpectedMisfits_eq_nil_iff,
        missingMisfits_eq_nil_iff, h]
      refine ⟨⟨fun e he => ?_, hrequired⟩, hfields⟩
      obtain ⟨field, hfield, hkey⟩ := hkeys e he
      exact ⟨field.1, List.mem_map_of_mem hfield, hkey⟩

theorem misfits_mapping {keys : Option NameForm} {values : Shape}
    (h : ∀ {d}, values.misfits d = [] ↔ values.Accepts d) :
    (Shape.mapping keys values).misfits d = [] ↔ (Shape.mapping keys values).Accepts d := by
  constructor
  · intro hnone
    cases d with
    | mapping entries =>
      simp only [Shape.misfits, List.append_eq_nil_iff, List.flatMap_eq_nil_iff,
        List.map_eq_nil_iff] at hnone
      refine .mapping ?_ fun e he => h.1 (hnone.2 e he)
      rintro form rfl e he
      exact nameMisfits_eq_nil_iff.1 (List.flatMap_eq_nil_iff.1 hnone.1 e he)
    | _ => simp [Shape.misfits, kindMisfits, Kind.holds] at hnone
  · intro haccepts
    cases haccepts with
    | mapping hkeys hvalues =>
      simp only [Shape.misfits, List.append_eq_nil_iff, List.flatMap_eq_nil_iff,
        List.map_eq_nil_iff]
      refine ⟨?_, fun e he => h.2 (hvalues e he)⟩
      cases keys with
      | none => rfl
      | some form =>
        exact List.flatMap_eq_nil_iff.2 fun e he => nameMisfits_eq_nil_iff.2 (hkeys form rfl e he)

end

mutual

/-- **Nothing is found amiss exactly where data have the shape.** -/
theorem Shape.misfits_eq_nil_iff : ∀ (s : Shape) {d : Data}, s.misfits d = [] ↔ s.Accepts d
  | .scalar, _ => misfits_scalar
  | .text, _ => misfits_text
  | .someText, _ => misfits_someText
  | .name _, _ => misfits_name
  | .whole _, _ => misfits_whole
  | .list items, _ => misfits_list items.misfits_eq_nil_iff
  | .record _ fields, _ => misfits_record (fieldMisfits_eq_nil_iff fields)
  | .mapping _ values, _ => misfits_mapping values.misfits_eq_nil_iff
termination_by structural s => s

theorem fieldMisfits_eq_nil_iff : ∀ (fields : List (String × Shape)) {d : Data},
    fieldMisfits fields d = [] ↔
      ∀ field ∈ fields, ∀ x, d.field? field.1 = some x → field.2.Accepts x
  | [], _ => by simp [fieldMisfits]
  | (name, shape) :: rest, d => by
    have hshape : ∀ {d : Data}, shape.misfits d = [] ↔ shape.Accepts d := shape.misfits_eq_nil_iff
    have hrest := fieldMisfits_eq_nil_iff rest (d := d)
    rw [fieldMisfits, List.append_eq_nil_iff, List.forall_mem_cons, hrest]
    cases d.field? name <;> simp [hshape]
termination_by structural fields => fields

end

/-- What stands in a field of a record has the shape of the field. -/
theorem Shape.Accepts.field {required : List String} {fields : List (String × Shape)} {d x : Data}
    (h : (Shape.record required fields).Accepts d) {name : String} {shape : Shape}
    (hfield : (name, shape) ∈ fields) (hx : d.field? name = some x) : shape.Accepts x := by
  cases h with
  | record _ _ hfields => exact hfields _ hfield x hx

/-! ## The layout of a rule file -/

namespace RuleFile

variable {file : String} {d : Data}

/-- A misfit that cannot be told, since an integer in it has too many digits. -/
def IsUnwritable (l : Located) : Prop :=
  l.misfit.isWritable = false ∨ ∃ step ∈ l.path, step.isWritable = false

/-- The misfits of a document by path, or why they cannot be told. -/
theorem layoutIssues_cases (file : String) (d : Data) :
    (∃ f, layoutIssues file d = .error (.order f) ∧
      Incomparable (fun a b => pathBefore a.path b.path) f (layout.misfits d)) ∨
    (layoutIssues file d = .error .tooManyDigits ∧ ∃ l ∈ layout.misfits d, IsUnwritable l) ∨
    ∃ misfits : List Located, misfits.Perm (layout.misfits d) ∧
      layoutIssues file d =
        .ok (misfits.map fun l => ⟨file, l.misfit.message, pathText l.path⟩) := by
  unfold layoutIssues
  split_ifs with hwritable
  · refine .inr (.inl ⟨rfl, ?_⟩)
    obtain ⟨l, hl, hmisfit⟩ : ∃ l ∈ layout.misfits d, l.misfit.isWritable = false := by
      simpa using hwritable
    exact ⟨l, hl, .inl hmisfit⟩
  · cases hsorted : layout.misfitsByPath d with
    | error f => exact .inl ⟨f, rfl, sortBy_error hsorted⟩
    | ok misfits =>
      have hperm := perm_sortBy hsorted
      simp only [Except.mapError, ok_bind]
      split_ifs with hpaths
      · refine .inr (.inl ⟨rfl, ?_⟩)
        obtain ⟨l, hl, step, hstep, hunwritable⟩ :
            ∃ l ∈ misfits, ∃ step ∈ l.path, step.isWritable = false := by
          simpa using hpaths
        exact ⟨l, hperm.subset hl, .inr ⟨step, hstep, hunwritable⟩⟩
      · exact .inr (.inr ⟨misfits, hperm, rfl⟩)

/-- A document has the layout exactly where it has no issues. -/
theorem layoutIssues_eq_nil_iff : layoutIssues file d = .ok [] ↔ layout.Accepts d := by
  rw [← layout.misfits_eq_nil_iff]
  constructor
  · intro h
    rcases layoutIssues_cases file d with ⟨f, hcase, -⟩ | ⟨hcase, -⟩ | ⟨misfits, hperm, hcase⟩
    · cases hcase.symm.trans h
    · cases hcase.symm.trans h
    · have hnone : misfits = [] := by simpa using Except.ok.inj (hcase.symm.trans h)
      rw [hnone] at hperm
      exact List.perm_nil.1 hperm.symm
  · intro h
    unfold layoutIssues Shape.misfitsByPath
    rw [h]
    rfl

end RuleFile

end Rulebook

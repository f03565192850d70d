/-
  Selecting — which records a filter keeps that takes errors as no match.

  * `Filter.strictly`, `Filter.leniently`: the filters of one clause that pass its errors on,
    and that take them as no match; `Filter.accepts_leniently` relates what they say.
  * `Filter.breakdown_of_accepts`: a match breaks down where a field that the clause reads is
    an integer beyond the doubles, or as the evaluation of the clause can.
  * `Filter.visits`: the items of a list, each with the state that the functions of the host
    are in when its record is matched.
  * `lenient_select_agrees`: the lenient filter keeps the items whose records match strictly,
    in their order, unless one of the matches breaks down.
-/
import Rulebook.Proofs.Dependence

namespace Rulebook

open Eval

namespace Filter

variable {ω α : Type}

/-- The filter of the same clause that passes errors on. -/
def strictly (f : Filter) : Filter := { f with strict := true }

/-- The filter of the same clause that takes errors as no match. -/
def leniently (f : Filter) : Filter := { f with strict := false }

/-! ## One record -/

/-- An answer with errors of the language taken as no match. -/
def withoutErrors : Except Failure Bool → Except Failure Bool
  | .error (.error _) => .ok false
  | answer => answer

/-- The breakdown that an answer is. -/
def breakdown? : Except Failure Bool → Option Breakdown
  | .error (.breakdown b) => some b
  | _ => none

section
variable (f : Filter) (functions : Registry ω)

theorem accepts_leniently (record : Record) (host : ω) :
    f.leniently.accepts functions record host =
      (withoutErrors (f.strictly.accepts functions record host).1,
        (f.strictly.accepts functions record host).2) := by
  have hverdict : ∀ answer,
      f.leniently.verdict answer = withoutErrors (f.strictly.verdict answer) := by
    rintro ((e | b) | v) <;> rfl
  have hlenient : f.leniently.bindings record = f.bindings record := rfl
  have hstrict : f.strictly.bindings record = f.bindings record := rfl
  unfold accepts
  rw [hlenient, hstrict]
  cases f.bindings record with
  | error b => rfl
  | ok b => exact congrArg (·, _) (hverdict _)

theorem breakdown_of_bindings {record : Record} {b : Breakdown}
    (h : f.bindings record = .error b) :
    b = .data .integerTooLarge ∧ ∃ name ∈ f.clause.referencedVariables, record.Overflows name := by
  by_cases hoverflow : ∃ name ∈ f.fields, record.Overflows name
  · have herror : f.bindings record = .error (.data .integerTooLarge) :=
      foldlM_bindField_eq_error hoverflow []
    rw [herror] at h
    cases h
    obtain ⟨name, hname, ho⟩ := hoverflow
    exact ⟨rfl, name, mem_sortedNames.1 hname, ho⟩
  · have hfields : ∀ name ∈ f.fields, ¬ record.Overflows name :=
      fun name hname ho => hoverflow ⟨name, hname, ho⟩
    obtain ⟨b', hb', -⟩ := foldlM_bindField_eq_ok hfields []
    have hok : f.bindings record = .ok b' := hb'
    rw [hok] at h
    cases h

/-- A match breaks down over a field, or as evaluation can. -/
theorem breakdown_of_accepts {record : Record} {host : ω} {b : Breakdown}
    (h : (f.accepts functions record host).1 = .error (.breakdown b)) :
    (b = .data .integerTooLarge ∧
      ∃ name ∈ f.clause.referencedVariables, record.Overflows name) ∨
    ∃ bs, f.bindings record = .ok bs ∧
      f.clause.Escapes ⟨f.limits, functions⟩ ⟨bs, [], host⟩ b := by
  unfold accepts at h
  cases hbindings : f.bindings record with
  | error c =>
    rw [hbindings] at h
    cases h
    exact .inl (f.breakdown_of_bindings hbindings)
  | ok bs =>
    rw [hbindings] at h
    have hanswer : f.answer functions bs host = .error (.breakdown b) := by
      have hverdict : f.verdict (f.answer functions bs host) = .error (.breakdown b) := h
      rcases hcase : f.answer functions bs host with (e | c) | v
      · rw [hcase, verdict] at hverdict
        split_ifs at hverdict
        cases hverdict
      · rw [hcase] at hverdict
        cases hverdict
        rfl
      · rw [hcase] at hverdict
        cases hverdict
    exact .inr ⟨bs, rfl, Node.breaksDown_iff.1 hanswer⟩

end

/-! ## Lists of items -/

/-- The items of a list, each with the state of the host in which its record is matched. -/
def visits (f : Filter) (functions : Registry ω) (record : α → Record) :
    List α → ω → List (α × ω)
  | [], _ => []
  | x :: xs, host =>
    (x, host) :: visits f functions record xs (f.accepts functions (record x) host).2

/-- What the filter says of a record in a state of the host. -/
def answerAt (f : Filter) (functions : Registry ω) (record : α → Record) (visit : α × ω) :
    Except Failure Bool := (f.accepts functions (record visit.1) visit.2).1

/-- The items kept of a list, from those kept of the rest. -/
theorem select_cons (f : Filter) (functions : Registry ω) (record : α → Record) (x : α)
    (xs : List α) (host : ω) :
    (f.select functions record (x :: xs) host).1 = (do
      let keep ← (f.accepts functions (record x) host).1
      let rest ← (f.select functions record xs (f.accepts functions (record x) host).2).1
      return if keep then x :: rest else rest) := by
  show ((f.select functions record (x :: xs)).run host).1 = _
  rw [select, run_bind]
  have hx : (f.accepts functions (record x)).run host = f.accepts functions (record x) host := rfl
  rw [hx]
  rcases f.accepts functions (record x) host with ⟨e | keep, host'⟩
  · rfl
  · dsimp only
    rw [run_bind]
    have hxs : (f.select functions record xs).run host' = f.select functions record xs host' := rfl
    rw [hxs]
    rcases f.select functions record xs host' with ⟨e | rest, host''⟩ <;> rfl

theorem select_leniently (f : Filter) (functions : Registry ω) (record : α → Record)
    (xs : List α) : ∀ host : ω, (f.leniently.select functions record xs host).1 =
      match (f.strictly.visits functions record xs host).findSome?
          fun visit => breakdown? (f.strictly.answerAt functions record visit) with
      | some b => .error (.breakdown b)
      | none => .ok (((f.strictly.visits functions record xs host).filter
          fun visit => f.strictly.answerAt functions record visit = .ok true).map (·.1)) := by
  induction xs with
  | nil => exact fun host => rfl
  | cons x xs ih =>
    intro host
    have hhere : f.strictly.answerAt functions record (x, host) =
        (f.strictly.accepts functions (record x) host).1 := rfl
    rw [select_cons, accepts_leniently, ih, visits, List.findSome?_cons, List.filter_cons, hhere]
    dsimp only
    generalize (f.strictly.visits functions record xs _).findSome? _ = broken
    generalize (f.strictly.visits functions record xs _).filter _ = kept
    rcases (f.strictly.accepts functions (record x) host).1 with (e | b) | _ | _
    · cases broken <;> rfl
    · rfl
    · cases broken <;> rfl
    · cases broken <;> rfl

/-- **A filter that takes errors as no match keeps what matches strictly**, in its order. On
    each record it says what the strict filter says, with errors taken as no match. Neither
    has another answer than a verdict or an error of the language, unless a field that the
    clause reads is an integer beyond the doubles, or the evaluation of the clause breaks down in
    one of its own ways: then the first such breakdown is the answer for all the items. -/
theorem lenient_select_agrees (f : Filter) (functions : Registry ω) (record : α → Record) :
    (∀ (r : Record) (host : ω), f.leniently.accepts functions r host =
      (withoutErrors (f.strictly.accepts functions r host).1,
        (f.strictly.accepts functions r host).2)) ∧
    (∀ (r : Record) (host : ω) (b : Breakdown),
      (f.strictly.accepts functions r host).1 = .error (.breakdown b) →
        (b = .data .integerTooLarge ∧
          ∃ name ∈ f.clause.referencedVariables, r.Overflows name) ∨
        ∃ bs, f.bindings r = .ok bs ∧
          f.clause.Escapes ⟨f.limits, functions⟩ ⟨bs, [], host⟩ b) ∧
    ∀ (xs : List α) (host : ω), (f.leniently.select functions record xs host).1 =
      match (f.strictly.visits functions record xs host).findSome?
          fun visit => breakdown? (f.strictly.answerAt functions record visit) with
      | some b => .error (.breakdown b)
      | none => .ok (((f.strictly.visits functions record xs host).filter
          fun visit => f.strictly.answerAt functions record visit = .ok true).map (·.1)) :=
  ⟨f.accepts_leniently functions, fun _ _ _ h => f.strictly.breakdown_of_accepts functions h,
    f.select_leniently functions record⟩

/-- Records without a size, with one that is true, and with one beyond the doubles. -/
def sized : ℕ → Record
  | 0 => []
  | 1 => [("size", .boolean true)]
  | _ => [("size", .integer beyondDoubles)]

/-- The record without a size is passed over, and the one with too large a size breaks down. -/
theorem sized_selected :
    ((readsOnly "size").leniently.select ([] : Registry Unit) sized [0, 1] ()).1 = .ok [1] ∧
      ((readsOnly "size").strictly.accepts ([] : Registry Unit) (sized 2) ()).1 =
        .error (.breakdown (.data .integerTooLarge)) ∧
      (((.data .integerTooLarge : Breakdown) = .data .integerTooLarge ∧
        ∃ name ∈ (readsOnly "size").clause.referencedVariables, (sized 2).Overflows name) ∨
        ∃ bs, (readsOnly "size").bindings (sized 2) = .ok bs ∧
          (readsOnly "size").clause.Escapes (⟨(readsOnly "size").limits, []⟩ : Environment Unit)
            ⟨bs, [], ()⟩ (.data .integerTooLarge)) := by
  obtain ⟨-, hbreaks, hselect⟩ :=
    lenient_select_agrees (readsOnly "size") ([] : Registry Unit) sized
  have hoversized : ((readsOnly "size").strictly.accepts ([] : Registry Unit) (sized 2) ()).1 =
      .error (.breakdown (.data .integerTooLarge)) := by decide +kernel
  refine ⟨?_, hoversized, hbreaks _ _ _ hoversized⟩
  rw [hselect]
  decide +kernel

/-- With one size beyond the doubles nothing is selected, though the other record matches. -/
theorem oversized_stops_select :
    ((readsOnly "size").leniently.select ([] : Registry Unit) sized [2, 1] ()).1 =
        .error (.breakdown (.data .integerTooLarge)) ∧
      ((readsOnly "size").strictly.accepts ([] : Registry Unit) (sized 1) ()).1 = .ok true := by
  decide +kernel

end Filter

end Rulebook

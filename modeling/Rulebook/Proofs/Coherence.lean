/-
  The comparison operators, in agreement with each other.

  * `numberOrder_eq`, `textOrder_eq_eq`: the orders of doubles and of texts; `order?` of two
    doubles, and equality where it gives none.
  * `Value.Incomparable a b`: both stand for numbers, one of them NaN.
  * `compare_of_swap`, `equals_of_compare`, `compare_of_incomparable`: the order the other way
    round, and equality read off the order.
  * `BinaryOperator.Holds op a b`: the operator answers true.
  * `comparisons_coherent`: of comparable values exactly one is less, equal or greater, and
    the other operators follow; incomparable ones are none of these, and at most and at
    least each other.
-/
import Rulebook.Proofs.Breakdowns
import Rulebook.Proofs.NormalForm

namespace Rulebook

open Number

/-! ## Orders of doubles and of texts -/

namespace Value

theorem numberOrder_eq (x y : Float) : numberOrder x y = (order? x y).getD .eq := by
  simp only [numberOrder, lt_iff, order?_swap x y]
  rcases order? x y with _ | (_ | _ | _) <;> rfl

theorem numberOrder_swap (x y : Float) : numberOrder y x = (numberOrder x y).swap := by
  rw [numberOrder_eq, numberOrder_eq, order?_swap]
  cases order? x y <;> rfl

theorem textOrder_swap (s t : String) : textOrder t s = (textOrder s t).swap := by
  unfold textOrder
  by_cases h : s < t
  · simp [h, String.lt_asymm h]
  · by_cases h' : t < s <;> simp [h, h']

theorem textOrder_eq_eq {s t : String} : textOrder s t = .eq ↔ s = t := by
  unfold textOrder
  constructor
  · intro h
    split_ifs at h with hlt hgt
    exact String.le_antisymm (String.not_lt.1 hgt) (String.not_lt.1 hlt)
  · rintro rfl
    simp

/-! ## The order of values -/

variable {a b : Value} {x y : Float} {m n : Option Float} {o : Ordering}

theorem compare_of_numbers (hx : a.toNumber = .ok (some x)) (hy : b.toNumber = .ok (some y)) :
    a.compare b = .ok (numberOrder x y) := by
  simp [compare, isOrdered_of_toNumber hx, isOrdered_of_toNumber hy, hx, hy]

theorem compare_of_no_number (ha : a.isOrdered = true) (hb : b.isOrdered = true)
    (hm : a.toNumber = .ok m) (hn : b.toNumber = .ok n) (hnone : m = none ∨ n = none) :
    a.compare b = .ok (textOrder a.toText b.toText) := by
  rw [compare, ha, hb, hm, hn]
  rcases hnone with rfl | rfl
  · rfl
  · cases m <;> rfl

/-- What has an order is compared by number where both sides stand for one, and by text
    form otherwise. -/
theorem compare_cases (h : a.compare b = .ok o) :
    (∃ x y, a.toNumber = .ok (some x) ∧ b.toNumber = .ok (some y) ∧ o = numberOrder x y) ∨
      a.isOrdered = true ∧ b.isOrdered = true ∧ o = textOrder a.toText b.toText ∧
        ∃ m n, a.toNumber = .ok m ∧ b.toNumber = .ok n ∧ (m = none ∨ n = none) := by
  unfold compare at h
  split_ifs at h with hordered
  obtain ⟨ha, hb⟩ := (Bool.and_eq_true _ _).mp hordered
  cases hm : a.toNumber with
  | error e => simp [hm] at h
  | ok m =>
    cases hn : b.toNumber with
    | error e => simp [hm, hn] at h
    | ok n =>
      rw [hm, hn] at h
      match m, n with
      | some x, some y => exact .inl ⟨x, y, rfl, rfl, (Except.ok.inj h).symm⟩
      | none, n => exact .inr ⟨ha, hb, (Except.ok.inj h).symm, none, n, rfl, rfl, .inl rfl⟩
      | some x, none =>
        exact .inr ⟨ha, hb, (Except.ok.inj h).symm, some x, none, rfl, rfl, .inr rfl⟩

/-- The order the other way round. -/
theorem compare_of_swap (h : a.compare b = .ok o) : b.compare a = .ok o.swap := by
  rcases compare_cases h with ⟨x, y, hx, hy, rfl⟩ | ⟨ha, hb, rfl, m, n, hm, hn, hnone⟩
  · rw [compare_of_numbers hy hx, numberOrder_swap]
  · rw [compare_of_no_number hb ha hn hm hnone.symm, textOrder_swap]

/-- Two values that stand for numbers, one of them NaN. -/
def Incomparable (a b : Value) : Prop :=
  ∃ x y, a.toNumber = .ok (some x) ∧ b.toNumber = .ok (some y) ∧
    (x.isNaN = true ∨ y.isNaN = true)

/-- Of comparable values those are equal that are neither less nor greater. -/
theorem equals_of_compare (h : a.compare b = .ok o) (hab : ¬ a.Incomparable b) :
    a.equals b = .ok (o == .eq) := by
  rcases compare_cases h with ⟨x, y, hx, hy, rfl⟩ | ⟨ha, hb, rfl, m, n, hm, hn, hnone⟩
  · have hsome : order? x y ≠ none := fun hnone => hab ⟨x, y, hx, hy, order?_eq_none.1 hnone⟩
    obtain ⟨o, ho⟩ := Option.ne_none_iff_exists'.1 hsome
    rw [equals_of_numbers hx hy, numberOrder_eq, ho, Except.ok.injEq, Bool.eq_iff_iff,
      beq_iff_order?, ho]
    simp
  · rw [equals_of_no_number ha hb hm hn hnone, Except.ok.injEq, Bool.eq_iff_iff, beq_iff_eq,
      beq_iff_eq, textOrder_eq_eq]

/-- NaN has the order of an equal, but is not equal. -/
theorem compare_of_incomparable (hab : a.Incomparable b) :
    a.compare b = .ok .eq ∧ a.equals b = .ok false := by
  obtain ⟨x, y, hx, hy, hnan⟩ := hab
  have hnone : order? x y = none := order?_eq_none.2 hnan
  constructor
  · rw [compare_of_numbers hx hy, numberOrder_eq, hnone]
    rfl
  · rw [equals_of_numbers hx hy, Except.ok.injEq, Bool.eq_false_iff, ne_eq, beq_iff_order?,
      hnone]
    simp

end Value

/-! ## The operators -/

/-- The operator answers true. -/
def BinaryOperator.Holds (op : BinaryOperator) (a b : Value) : Prop :=
  op.apply a b = .ok (.boolean true)

namespace BinaryOperator

variable {a b : Value} {o : Ordering} {answer : Bool}

theorem holds_equal (h : a.equals b = .ok answer) : Holds .equal a b ↔ answer = true := by
  rw [Holds, apply, equated, h]
  simp [Except.mapError, bind, Except.bind, pure, Except.pure]

/-- An operator that tests the order holds if the order passes its test. -/
theorem ordered_eq_true (h : a.compare b = .ok o) (test : Ordering → Bool) :
    ordered test a b = .ok (.boolean true) ↔ test o = true := by
  rw [ordered, h]
  simp [bind, Except.bind, pure, Except.pure]

/-- **The comparison operators agree.** Where two values have an order, the one is less
    exactly if the other is greater. Unless both stand for numbers and one of these is NaN,
    exactly one of less, equal and greater holds, and the other two operators are what
    their names say. With NaN none of the three holds, and yet both of the others do. -/
theorem comparisons_coherent (h : a.compare b = .ok o) :
    (Holds .less a b ↔ Holds .greater b a) ∧
    (¬ a.Incomparable b →
      (Holds .less a b ∧ ¬ Holds .equal a b ∧ ¬ Holds .greater a b ∨
        ¬ Holds .less a b ∧ Holds .equal a b ∧ ¬ Holds .greater a b ∨
        ¬ Holds .less a b ∧ ¬ Holds .equal a b ∧ Holds .greater a b) ∧
      (Holds .lessEqual a b ↔ Holds .less a b ∨ Holds .equal a b) ∧
      (Holds .greaterEqual a b ↔ Holds .greater a b ∨ Holds .equal a b)) ∧
    (a.Incomparable b →
      ¬ Holds .less a b ∧ ¬ Holds .equal a b ∧ ¬ Holds .greater a b ∧
        Holds .lessEqual a b ∧ Holds .greaterEqual a b) := by
  have hless : Holds .less a b ↔ (o == .lt) = true := ordered_eq_true h _
  have hgreater : Holds .greater a b ↔ (o == .gt) = true := ordered_eq_true h _
  have hgreater' : Holds .greater b a ↔ (o.swap == .gt) = true :=
    ordered_eq_true (Value.compare_of_swap h) _
  have hlessEqual : Holds .lessEqual a b ↔ (o != .gt) = true := ordered_eq_true h _
  have hgreaterEqual : Holds .greaterEqual a b ↔ (o != .lt) = true := ordered_eq_true h _
  rw [hless, hgreater, hgreater', hlessEqual, hgreaterEqual]
  refine ⟨by cases o <;> decide, fun hab => ?_, fun hab => ?_⟩
  · rw [holds_equal (Value.equals_of_compare h hab)]
    cases o <;> decide
  · obtain ⟨heq, hfalse⟩ := Value.compare_of_incomparable hab
    obtain rfl : o = .eq := Except.ok.inj (h.symm.trans heq)
    rw [holds_equal hfalse]
    decide

/-- A number and a text that looks like one are ordered as numbers. -/
theorem two_less_ten :
    (Value.number 2).compare (.text "10") = .ok .lt ∧
      Holds .less (.number 2) (.text "10") ∧ Holds .greater (.text "10") (.number 2) ∧
      Holds .lessEqual (.number 2) (.text "10") := by
  have hcompare : (Value.number 2).compare (.text "10") = .ok .lt := by decide +kernel
  have hless : Holds .less (.number 2) (.text "10") := (ordered_eq_true hcompare _).2 rfl
  have hten : (Value.text "10").toNumber = .ok (some 10) := by decide +kernel
  have hcomparable : ¬ (Value.number 2).Incomparable (.text "10") := by
    rintro ⟨x, y, hx, hy, hnan⟩
    cases hx
    rw [hten] at hy
    cases hy
    revert hnan
    decide +kernel
  obtain ⟨hswap, hexact, -⟩ := comparisons_coherent hcompare
  exact ⟨hcompare, hless, hswap.1 hless, (hexact hcomparable).2.1.2 (.inl hless)⟩

/-- The difference of two infinities, which an expression computes, is neither less than one
    nor equal nor greater, and yet at most and at least one. -/
theorem difference_of_infinities_incoherent :
    answerWith [] "n = toNumber(\"1e999\"); n = n - n; (n < 1) OR (n = 1) OR (n > 1)" =
        .ok (.boolean false) ∧
      answerWith [] "n = toNumber(\"1e999\"); n = n - n; (n <= 1) AND (n >= 1)" =
        .ok (.boolean true) :=
  ⟨by decide +kernel, by decide +kernel⟩

end BinaryOperator

end Rulebook

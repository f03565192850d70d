/-
  Equality as equality of normal forms.

  * `equals_of_numbers`, `equals_of_no_number`, `equals_of_unordered`: what equality
    compares: numbers, text forms, or nothing but the kinds of value.
  * `Value.normalForm v`: the number that `v` stands for, zero without its sign; `v` itself
    where it stands for none.
  * `equals_iff_normalForm`: values that are neither infinite nor NaN are equal exactly if
    their normal forms are the same, so equality is an equivalence; what keeps it from an
    answer is a numeral that cannot be read.
-/
import Rulebook.Proofs.NumberText
import Rulebook.Proofs.Operators
import Rulebook.Proofs.Unquoted

namespace Rulebook

open Number

namespace Value

variable {a b : Value} {x y : Float} {m n : Option Float}

/-! ## Values that stand for numbers -/

/-- Only numbers and texts stand for numbers. -/
theorem isOrdered_of_toNumber (h : a.toNumber = .ok (some x)) : a.isOrdered = true := by
  cases a with
  | number _ | text _ => rfl
  | null | boolean _ => cases h

/-- What has a place in the order and stands for no number is a text. -/
theorem eq_text_of_toNumber (ha : a.isOrdered = true) (h : a.toNumber = .ok none) :
    ∃ s, a = .text s := by
  cases a with
  | text s => exact ⟨s, rfl⟩
  | number _ => cases h
  | null | boolean _ => cases ha

theorem toNumber_text {s : String} {x : Float} (h : (text s).toNumber = .ok (some x)) :
    numericText s = .number x := by
  rw [toNumber] at h
  cases hs : numericText s with
  | number z =>
    rw [hs] at h
    cases h
    rfl
  | other | unreadable =>
    rw [hs] at h
    cases h

/-- No numeral reads as NaN. -/
theorem isNaN_of_numericText {s : String} {x : Float} (h : numericText s = .number x) :
    x.isNaN = false := by
  have hinfinity : ∀ negative, (infinity negative).isNaN = false := by decide +kernel
  unfold numericText at h
  dsimp only at h
  split at h
  · cases h
  · next d _ =>
    split_ifs at h
    obtain rfl : d.toDouble = x := NumericText.number.inj h
    rcases isFinite_or_infinity_toDouble d with hfinite | hinfinite
    · exact isNaN_eq_false hfinite
    · rw [hinfinite]
      exact hinfinity _

theorem isNaN_of_toNumber (ha : a.isFinite = true) (h : a.toNumber = .ok (some x)) :
    x.isNaN = false := by
  cases a with
  | number z =>
    cases h
    exact isNaN_eq_false ha
  | text s => exact isNaN_of_numericText (toNumber_text h)
  | null | boolean _ => cases h

/-- The text form of a value that stands for a number stands for one too. -/
theorem toNumber_toText (ha : a.isFinite = true) (h : a.toNumber = .ok (some x)) :
    ∃ z, (text a.toText).toNumber = .ok (some z) := by
  cases a with
  | number z => exact ⟨unsignedZero z, by rw [toNumber, toText, numericText_numberText ha]⟩
  | text s => exact ⟨x, h⟩
  | null | boolean _ => cases h

/-- So it is not the text of a value that stands for none. -/
theorem toText_ne (ha : a.isFinite = true) (hm : a.toNumber = .ok (some x))
    (hb : b.isOrdered = true) (hn : b.toNumber = .ok none) : a.toText ≠ b.toText := by
  obtain ⟨t, rfl⟩ := eq_text_of_toNumber hb hn
  obtain ⟨z, hz⟩ := toNumber_toText ha hm
  intro htext
  rw [htext, toText, hn] at hz
  cases hz

/-! ## What equality compares -/

section
variable (ha : a.isOrdered = true) (hb : b.isOrdered = true)
include ha hb

/-- Numbers and texts are compared by number where both stand for one, else by text form. -/
theorem equals_of_ordered : a.equals b = (do
    match ← a.toNumber, ← b.toNumber with
    | some x, some y => return x == y
    | _, _ => return a.toText == b.toText) := by
  cases a with
  | null | boolean _ => cases ha
  | number _ | text _ =>
    cases b with
    | null | boolean _ => cases hb
    | number _ | text _ => rfl

theorem equals_of_no_number (hm : a.toNumber = .ok m) (hn : b.toNumber = .ok n)
    (hnone : m = none ∨ n = none) : a.equals b = .ok (a.toText == b.toText) := by
  rw [equals_of_ordered ha hb, hm, hn]
  rcases hnone with rfl | rfl
  · rfl
  · cases m <;> rfl

end

theorem equals_of_numbers (hx : a.toNumber = .ok (some x)) (hy : b.toNumber = .ok (some y)) :
    a.equals b = .ok (x == y) := by
  rw [equals_of_ordered (isOrdered_of_toNumber hx) (isOrdered_of_toNumber hy), hx, hy]
  rfl

/-- Beside null or a boolean only the same value is equal. -/
theorem equals_of_unordered (h : ¬ (a.isOrdered = true ∧ b.isOrdered = true)) :
    a.equals b = .ok (decide (a = b)) := by
  cases a <;> cases b <;> simp_all [equals, isOrdered, isNull, ← Bool.beq_eq_decide_eq]

/-! ## Normal forms -/

/-- The number that a value stands for, zero without its sign, or the value itself. -/
def normalForm (v : Value) : Value :=
  match v.toNumber with
  | .ok (some x) => .number (unsignedZero x)
  | _ => v

theorem normalForm_of_number (h : a.toNumber = .ok (some x)) :
    a.normalForm = .number (unsignedZero x) := by
  rw [normalForm, h]

theorem normalForm_of_no_number (h : a.toNumber = .ok none) : a.normalForm = a := by
  rw [normalForm, h]

theorem isOrdered_normalForm (v : Value) : v.normalForm.isOrdered = v.isOrdered := by
  unfold normalForm
  split
  · next h => exact (isOrdered_of_toNumber h).symm
  · rfl

theorem normalForm_of_unordered (h : a.isOrdered = false) : a.normalForm = a := by
  cases a with
  | null | boolean _ => rfl
  | number _ | text _ => cases h

/-- Equality, where it gives an answer, is equality of the normal forms. -/
theorem equals_eq_decide (ha : a.isFinite = true) (hb : b.isFinite = true)
    (hread : a.isOrdered = true → b.isOrdered = true → a.IsReadable ∧ b.IsReadable) :
    a.equals b = .ok (decide (a.normalForm = b.normalForm)) := by
  by_cases hordered : a.isOrdered = true ∧ b.isOrdered = true
  · obtain ⟨⟨m, hm⟩, n, hn⟩ := hread hordered.1 hordered.2
    match m, n with
    | some x, some y =>
      have hx := isNaN_of_toNumber ha hm
      have hy := isNaN_of_toNumber hb hn
      rw [equals_of_numbers hm hn, normalForm_of_number hm, normalForm_of_number hn,
        Except.ok.injEq, Bool.eq_iff_iff, beq_iff, decide_eq_true_iff, number.injEq]
      exact ⟨fun h => h.2.2, fun h => ⟨hx, hy, h⟩⟩
    | some x, none =>
      obtain ⟨t, rfl⟩ := eq_text_of_toNumber hordered.2 hn
      have htext := toText_ne ha hm hordered.2 hn
      rw [equals_of_no_number hordered.1 hordered.2 hm hn (.inr rfl), normalForm_of_number hm,
        normalForm_of_no_number hn]
      simp [htext]
    | none, some y =>
      obtain ⟨s, rfl⟩ := eq_text_of_toNumber hordered.1 hm
      have htext := (toText_ne hb hn hordered.1 hm).symm
      rw [equals_of_no_number hordered.1 hordered.2 hm hn (.inl rfl), normalForm_of_number hn,
        normalForm_of_no_number hm]
      simp [htext]
    | none, none =>
      obtain ⟨s, rfl⟩ := eq_text_of_toNumber hordered.1 hm
      obtain ⟨t, rfl⟩ := eq_text_of_toNumber hordered.2 hn
      rw [equals_of_no_number hordered.1 hordered.2 hm hn (.inl rfl), normalForm_of_no_number hm,
        normalForm_of_no_number hn, Except.ok.injEq, Bool.eq_iff_iff]
      simp [toText]
  · have hsame : a.normalForm = b.normalForm → a = b := by
      intro h
      have hkind : a.isOrdered = b.isOrdered := by
        rw [← isOrdered_normalForm a, h, isOrdered_normalForm]
      cases hkind' : a.isOrdered with
      | true => exact absurd ⟨hkind', hkind ▸ hkind'⟩ hordered
      | false =>
        rwa [normalForm_of_unordered hkind', normalForm_of_unordered (hkind ▸ hkind')] at h
    rw [equals_of_unordered hordered, Except.ok.injEq, decide_eq_decide]
    exact ⟨congrArg normalForm, hsame⟩

/-- What equality gives an answer for can be read. -/
theorem isReadable_of_equals {answer : Bool} (h : a.equals b = .ok answer)
    (ha : a.isOrdered = true) (hb : b.isOrdered = true) : a.IsReadable ∧ b.IsReadable := by
  have hno : ∀ e, a.equals b ≠ .error e := by simp [h]
  cases hm : a.toNumber with
  | error e => exact absurd (equals_eq_error_iff.2 ⟨ha, hb, .inl hm⟩) (hno e)
  | ok m =>
    cases hn : b.toNumber with
    | error e => exact absurd (equals_eq_error_iff.2 ⟨ha, hb, .inr ⟨⟨m, hm⟩, hn⟩⟩) (hno e)
    | ok n => exact ⟨⟨m, hm⟩, n, hn⟩

theorem equals_eq_true_iff (ha : a.isFinite = true) (hb : b.isFinite = true) :
    a.equals b = .ok true ↔
      (a.isOrdered = true → b.isOrdered = true → a.IsReadable ∧ b.IsReadable) ∧
        a.normalForm = b.normalForm := by
  constructor
  · intro h
    refine ⟨isReadable_of_equals h, ?_⟩
    rw [equals_eq_decide ha hb (isReadable_of_equals h)] at h
    simpa using h
  · rintro ⟨hread, h⟩
    rw [equals_eq_decide ha hb hread, h, decide_eq_true rfl]

/-! ## Equality as an equivalence -/

/-- **Equality is equality of normal forms.** Of values that are neither infinite nor NaN,
    two are equal exactly if their normal forms are the same, so equality is reflexive,
    symmetric and transitive, and a number equals no text that looks like none. It is only
    between numbers and texts that there may be no answer, and only because the numeral of
    one of them cannot be read. -/
theorem equals_iff_normalForm (ha : a.isFinite = true) (hb : b.isFinite = true) :
    ((a.isOrdered = true → b.isOrdered = true → a.IsReadable ∧ b.IsReadable) →
      a.equals b = .ok (decide (a.normalForm = b.normalForm))) ∧
    (∀ e, a.equals b = .error e ↔ a.isOrdered = true ∧ b.isOrdered = true ∧
      (a.toNumber = .error e ∨ a.IsReadable ∧ b.toNumber = .error e)) ∧
    (a.IsReadable → a.equals a = .ok true) ∧
    (a.equals b = .ok true → b.equals a = .ok true) ∧
    (∀ c : Value, c.isFinite = true → a.equals b = .ok true → b.equals c = .ok true →
      a.equals c = .ok true) ∧
    (∀ x s, a = number x → b = text s → numericText s = .other →
      a.equals b = .ok false ∧ b.equals a = .ok false) := by
  refine ⟨equals_eq_decide ha hb, fun e => equals_eq_error_iff, fun hread => ?_, fun h => ?_,
    fun c hc hab hbc => ?_, ?_⟩
  · exact (equals_eq_true_iff ha ha).2 ⟨fun _ _ => ⟨hread, hread⟩, rfl⟩
  · obtain ⟨hread, hform⟩ := (equals_eq_true_iff ha hb).1 h
    exact (equals_eq_true_iff hb ha).2 ⟨fun hob hoa => (hread hoa hob).symm, hform.symm⟩
  · obtain ⟨hread, hform⟩ := (equals_eq_true_iff ha hb).1 hab
    obtain ⟨hread', hform'⟩ := (equals_eq_true_iff hb hc).1 hbc
    refine (equals_eq_true_iff ha hc).2 ⟨fun hoa hoc => ?_, hform.trans hform'⟩
    have hob : b.isOrdered = true := by
      rw [← isOrdered_normalForm b, ← hform, isOrdered_normalForm, hoa]
    exact ⟨(hread hoa hob).1, (hread' hob hoc).2⟩
  · rintro x s rfl rfl hs
    have hx : (number x).toNumber = .ok (some x) := rfl
    have hnone : (text s).toNumber = .ok none := by rw [toNumber, hs]
    have hne := toText_ne ha hx rfl hnone
    rw [equals_of_no_number rfl rfl hx hnone (.inr rfl),
      equals_of_no_number rfl rfl hnone hx (.inl rfl)]
    exact ⟨congrArg _ (beq_false_of_ne hne), congrArg _ (beq_false_of_ne hne.symm)⟩

/-- Negative zero and a text of zero have one normal form. -/
theorem zeros_equal :
    (number (-0.0)).isFinite = true ∧ (text " 0.00 ").isFinite = true ∧
      (number (-0.0)).normalForm = (text " 0.00 ").normalForm ∧
      (number (-0.0)).equals (text " 0.00 ") = .ok true ∧
      (text " 0.00 ").equals (number (-0.0)) = .ok true := by
  have hfinite : (number (-0.0)).isFinite = true := by decide +kernel
  have hform : (number (-0.0)).normalForm = (text " 0.00 ").normalForm := by decide +kernel
  have htext : (text " 0.00 ").IsReadable := ⟨some 0.0, by decide +kernel⟩
  obtain ⟨hdecide, -, -, hsymm, -, -⟩ := equals_iff_normalForm hfinite (b := text " 0.00 ") rfl
  have hequals := hdecide fun _ _ => ⟨⟨_, rfl⟩, htext⟩
  rw [hform, decide_eq_true rfl] at hequals
  exact ⟨hfinite, rfl, hform, hequals, hsymm hequals⟩

/-- A digit behind an information separator is not equal even to itself: it looks like a
    number and cannot be read as one. -/
theorem separated_digit_not_equal :
    (text "\x1c1").isFinite = true ∧ numericText "\x1c1" = .unreadable ∧
      (text "\x1c1").equals (text "\x1c1") = .error (.unreadableNumber "\x1c1") :=
  ⟨rfl, by decide +kernel, by decide +kernel⟩

end Value

end Rulebook

/-
  The order of doubles.

  * `order? x y`: how two doubles compare, none where one of them is NaN; the tests `<` and
    `==` and `Value.numberOrder` read it off, and `order?_swap` exchanges the two.
  * `unsignedZero x`: the double, zero without its sign.
  * `beq_iff`: two doubles are equal exactly if neither is NaN and they are the same but for
    the sign of zero; so equality is an equivalence of the doubles other than NaN.
-/
import Rulebook.Proofs.Double

namespace Rulebook.Number

open Float.Model (Format UnpackedFloat)
open Float.Model.UnpackedFloat

/-! ## Doubles taken apart -/

section
variable {m n : ℕ} {e f : ℤ} (hm : 0 < m) (hn : 0 < n)

theorem compare_positive : (finite .positive m e hm).compare (finite .positive n f hn) =
    some ((compare e f).then (compare m n)) := rfl

theorem compare_negative : (finite .negative m e hm).compare (finite .negative n f hn) =
    some ((compare e f).then (compare m n)).swap := rfl

end

/-- The order the other way round. -/
theorem compare_swap (u v : UnpackedFloat) : v.compare u = (u.compare v).map .swap := by
  rcases u with (_ | _) | _ | (_ | _) | ⟨_ | _, m, e, hm⟩ <;>
    rcases v with (_ | _) | _ | (_ | _) | ⟨_ | _, n, f, hn⟩ <;>
    first
    | rfl
    | simp [compare_positive, compare_negative, Ordering.swap_then, ← Std.OrientedOrd.eq_swap]

section
variable {u v : UnpackedFloat}

/-- Only NaN has no order. -/
theorem isNone_compare : (u.compare v).isNone = (u.isNaN || v.isNaN) := by
  rcases u with (_ | _) | _ | (_ | _) | ⟨_ | _, m, e, hm⟩ <;>
    rcases v with (_ | _) | _ | (_ | _) | ⟨_ | _, n, f, hn⟩ <;> rfl

theorem compare_self (h : u.isNaN = false) : u.compare u = some .eq := by
  rcases u with (_ | _) | _ | (_ | _) | ⟨_ | _, m, e, hm⟩
  case notANumber => cases h
  case finite.positive => simp [compare_positive]
  case finite.negative => simp [compare_negative]
  all_goals rfl

/-- Only the zeros are equal to others. -/
theorem eq_of_compare_eq (h : u.compare v = some .eq) :
    u = v ∨ (∃ s, u = .zero s) ∧ ∃ s, v = .zero s := by
  rcases u with (_ | _) | _ | s | ⟨_ | _, m, e, hm⟩ <;>
    rcases v with (_ | _) | _ | t | ⟨_ | _, n, f, hn⟩
  case finite.positive.finite.positive =>
    obtain ⟨rfl, rfl⟩ : e = f ∧ m = n := by simpa [compare_positive, Ordering.then_eq_eq] using h
    exact .inl rfl
  case finite.negative.finite.negative =>
    obtain ⟨rfl, rfl⟩ : e = f ∧ m = n := by simpa [compare_negative, Ordering.then_eq_eq] using h
    exact .inl rfl
  all_goals
    first
    | exact .inl rfl
    | exact .inr ⟨⟨_, rfl⟩, _, rfl⟩
    | cases h

theorem compare_eq_eq :
    u.compare v = some .eq ↔
      u = v ∧ u.isNaN = false ∨ (∃ s, u = .zero s) ∧ ∃ s, v = .zero s := by
  constructor
  · intro h
    rcases eq_of_compare_eq h with rfl | hzero
    · have hsome := @isNone_compare u u
      rw [h, Bool.or_self] at hsome
      exact .inl ⟨rfl, hsome.symm⟩
    · exact .inr hzero
  · rintro (⟨rfl, h⟩ | ⟨⟨s, rfl⟩, t, rfl⟩)
    · exact compare_self h
    · rfl

end

/-- A double as its operations take it apart. -/
abbrev unpacked (x : Float) : UnpackedFloat := unpack Format.binary64 x.toBits.toBitVec

theorem eq_of_unpacked_eq {x y : Float} (h : unpacked x = unpacked y) : x = y := by
  rw [← ofBits_toBits x, ← ofBits_toBits y]
  exact congrArg (fun u => Float.ofModel (Float.Model.pack u)) h

/-! ## The order -/

/-- How two doubles compare; none where one of them is NaN. -/
def order? (x y : Float) : Option Ordering := (unpacked x).compare (unpacked y)

variable {x y : Float}

theorem lt_iff : x < y ↔ order? x y = some .lt := by
  change decide (((unpacked x).compare (unpacked y) == some .lt) = true) = true ↔ _
  rw [decide_eq_true_iff, beq_iff_eq, order?]

theorem beq_iff_order? : (x == y) = true ↔ order? x y = some .eq := by
  change ((unpacked x).compare (unpacked y) == some .eq) = true ↔ _
  rw [beq_iff_eq, order?]

theorem order?_swap (x y : Float) : order? y x = (order? x y).map .swap := compare_swap _ _

theorem order?_eq_none : order? x y = none ↔ x.isNaN = true ∨ y.isNaN = true := by
  rw [← Option.isNone_iff_eq_none, order?, isNone_compare, Bool.or_eq_true]
  rfl

/-! ## Zero and its signs -/

/-- A double, zero without its sign. -/
def unsignedZero (x : Float) : Float := if x == 0.0 then 0.0 else x

theorem unpacked_zero : unpacked 0.0 = .zero .positive := rfl

theorem beq_zero_iff : (x == 0.0) = true ↔ ∃ s, unpacked x = .zero s := by
  rw [beq_iff_order?, order?, compare_eq_eq, unpacked_zero]
  constructor
  · rintro (⟨h, -⟩ | ⟨h, -⟩)
    exacts [⟨_, h⟩, h]
  · exact fun h => .inr ⟨h, _, rfl⟩

theorem isNaN_of_unpacked_zero {s : Sign} (h : unpacked x = .zero s) : x.isNaN = false := by
  change (unpacked x).isNaN = false
  rw [h]
  rfl

/-- **Two doubles are equal if they are the same but for the sign of zero**, and no NaN. -/
theorem beq_iff :
    (x == y) = true ↔ x.isNaN = false ∧ y.isNaN = false ∧ unsignedZero x = unsignedZero y := by
  rw [beq_iff_order?, order?, compare_eq_eq]
  constructor
  · rintro (⟨h, hx⟩ | ⟨⟨s, hs⟩, t, ht⟩)
    · obtain rfl := eq_of_unpacked_eq h
      exact ⟨hx, hx, rfl⟩
    · refine ⟨isNaN_of_unpacked_zero hs, isNaN_of_unpacked_zero ht, ?_⟩
      rw [unsignedZero, if_pos (beq_zero_iff.2 ⟨s, hs⟩), unsignedZero,
        if_pos (beq_zero_iff.2 ⟨t, ht⟩)]
  · rintro ⟨hx, -, h⟩
    unfold unsignedZero at h
    split_ifs at h with hx' hy' hy'
    · exact .inr ⟨beq_zero_iff.1 hx', beq_zero_iff.1 hy'⟩
    · -- the other double is zero after all
      rw [← h] at hy'
      exact absurd rfl hy'
    · rw [h] at hx'
      exact absurd rfl hx'
    · exact .inl ⟨congrArg _ h, hx⟩

theorem unsignedZero_beq (hx : x.isNaN = false) : (unsignedZero x == x) = true := by
  unfold unsignedZero
  split_ifs with h
  · rw [beq_iff_order?, order?_swap, beq_iff_order?.1 h]
    rfl
  · exact beq_iff.2 ⟨hx, hx, rfl⟩

/-! ## Finite and positive doubles -/

/-- A finite double is no NaN: not all bits of its exponent are set. -/
theorem isNaN_eq_false (h : isFinite x = true) : x.isNaN = false := by
  have hfield : exponentField x.toBits.toBitVec ≠ -1#_ := by
    intro he
    have hbits := toNat_exponentField x.toBits.toBitVec
    have hfull : (-1#11 : BitVec 11).toNat = 2047 := rfl
    rw [he, hfull] at hbits
    simp only [isFinite_iff, magnitudeBits, infinityBits, unitBit_eq, signBit_eq,
      UInt64.toNat] at h
    omega
  change (unpack Format.binary64 x.toBits.toBitVec).isNaN = false
  unfold unpack
  dsimp only
  rw [if_neg hfield]
  split_ifs <;> rfl

theorem sign_of_isNegative (h : isNegative x = true) :
    Sign.ofBitVec (@unpackSign Format.binary64 x.toBits.toBitVec) = .negative := by
  have hlow : 2 ^ 63 ≤ x.toBits.toBitVec.toNat := by
    simp only [isNegative, signBit_eq, UInt64.toNat] at h
    exact of_decide_eq_true h
  have hhigh := x.toBits.toBitVec.isLt
  have hone : x.toBits.toBitVec.toNat / 2 ^ 63 = 1 := by omega
  rw [unpackSign_eq, hone]
  rfl

/-- What is greater than zero carries no minus. -/
theorem isNegative_of_pos (h : 0.0 < x) : isNegative x = false := by
  rw [lt_iff, order?, unpacked_zero] at h
  by_contra hnegative
  have hsign := sign_of_isNegative (by simpa using hnegative)
  unfold unpacked unpack at h
  simp only [hsign] at h
  split_ifs at h <;> cases h

end Rulebook.Number

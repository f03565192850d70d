/-
  Rounding to decimal places.

  * `numeral?_canonical`: the canonical text of a number reads as the numeral that is
    rounded.
  * `Decimal.quantize_spec`, `Decimal.quantize_ok_iff`: rounding a numeral to a power of ten
    takes the closest multiple, half away from zero, and needs room for its digits.
  * `roundingUnit places`: the exponent of the power of ten that a number of places rounds
    to: its negative for places behind the point, and zero for up to 27 places before it.
  * `Library.round_half_away`: what the function answers, and when.
-/
import Rulebook.Proofs.Calls
import Rulebook.Proofs.NearestDouble

namespace Rulebook

open Text Number

namespace Number

/-! ## The numeral of a number -/

theorem numeral?_zero : ∀ negative,
    numeral? (withSign negative "0.0".toList) = some ⟨negative, 0, -1⟩ := by
  decide +kernel

section
variable {d : Decimal} (hd : d.digits ≠ 0)
include hd

/-- A whole number by position is written with a zero after its point. -/
theorem numeral?_whole (he : 0 ≤ d.exponent)
    (hhigh : (digitsOf d.digits).length + d.exponent ≤ 16) :
    numeral? d.canonical = some ⟨d.negative, d.digits * Nat.pow 10 (d.exponent + 1).toNat, -1⟩ := by
  obtain ⟨whole, fraction, hspelled, hvalue, hplaces⟩ :=
    placePoint_spelled (digits_digitsOf d.digits) Nat.toDigits_ne_nil
      ((digitsOf d.digits).length + d.exponent)
  rw [digitsValue_digitsOf, add_sub_cancel_left] at hvalue
  obtain rfl : fraction = [] := List.eq_nil_of_length_eq_zero (by omega)
  rw [List.append_nil] at hvalue
  have htext : placePoint (digitsOf d.digits) ((digitsOf d.digits).length + d.exponent) = whole :=
    hspelled.eq
  have hpoint : '.' ∉ whole := fun hmem => absurd (hspelled.whole _ hmem) (by decide)
  have hlow : -4 < ((digitsOf d.digits).length : ℤ) + d.exponent := by omega
  have hcanonical : d.canonical = withSign d.negative (whole ++ ".0".toList) := by
    rw [Decimal.canonical, Decimal.canonicalWith]
    dsimp only
    rw [if_neg hd, if_pos ⟨hlow, hhigh⟩, htext, if_neg (by simpa using hpoint)]
  have hspelled' : Spelled whole ['0'] (whole ++ ".0".toList) :=
    ⟨rfl, hspelled.nonempty, hspelled.whole, digits_zeros 1⟩
  have hzero : digitsValue (whole ++ ['0']) = digitsValue whole * 10 ^ 1 := by
    rw [digitsValue_append]
    exact valueFrom_zeros _ 1
  have hexponent : (d.exponent + 1).toNat = d.exponent.toNat + 1 := by omega
  rw [hcanonical, hspelled'.numeral?, hzero, hvalue, hexponent, Nat.pow_eq, pow_succ, mul_assoc]
  rfl

/-- Any other number by position is written with the point in or before its digits. -/
theorem numeral?_fraction (he : d.exponent < 0)
    (hlow : -4 < (digitsOf d.digits).length + d.exponent)
    (hhigh : (digitsOf d.digits).length + d.exponent ≤ 16) : numeral? d.canonical = some d := by
  obtain ⟨whole, fraction, hspelled, hvalue, hplaces⟩ :=
    placePoint_spelled (digits_digitsOf d.digits) Nat.toDigits_ne_nil
      ((digitsOf d.digits).length + d.exponent)
  have hpoint : '.' ∈ placePoint (digitsOf d.digits)
      ((digitsOf d.digits).length + d.exponent) := by
    by_contra hnone
    have hends := point_of_not_mem_placePoint hnone
    omega
  have hpow : d.exponent.toNat = 0 := by omega
  have hexponent : -(fraction.length : ℤ) = d.exponent := by omega
  rw [digitsValue_digitsOf, add_sub_cancel_left, hpow, pow_zero, mul_one] at hvalue
  rw [canonical_positional hd hlow hhigh hpoint, plain_eq hd, hspelled.numeral?, hvalue, hexponent]

end

/-- **The canonical text of a numeral is read as it is written.** -/
theorem numeral?_canonical (d : Decimal) : numeral? d.canonical = some (written d) := by
  obtain ⟨c, cs, hds⟩ : ∃ c cs, digitsOf d.digits = c :: cs :=
    List.exists_cons_of_ne_nil Nat.toDigits_ne_nil
  have hlength : (digitsOf d.digits).length = cs.length + 1 := by rw [hds]; rfl
  have hhighest : Decimal.canonicalLayout.highest = 16 := rfl
  unfold written
  dsimp only
  rw [hhighest]
  split_ifs with hd hwhole
  · have hcanonical : d.canonical = withSign d.negative "0.0".toList := by
      rw [Decimal.canonical, Decimal.canonicalWith]
      simp only [hd, if_true]
    rw [hcanonical, numeral?_zero]
  · exact numeral?_whole hd hwhole.1 hwhole.2
  · by_cases hrange : -4 < (cs.length : ℤ) + 1 + d.exponent ∧
        (cs.length : ℤ) + 1 + d.exponent ≤ 16
    · exact numeral?_fraction hd (by omega) (by omega) (by omega)
    · rw [canonical_exponential hd hds hrange, numeral?_exponential hds]

/-- A numeral keeps its value as it is written. -/
theorem value_written (d : Decimal) : (written d).value = d.value := by
  unfold written Decimal.value
  dsimp only
  split_ifs with hd hwhole
  · rw [hd, Nat.cast_zero, zero_mul, zero_mul]
  · obtain ⟨k, hk⟩ := Int.eq_ofNat_of_zero_le hwhole.1
    have hexponent : (d.exponent + 1).toNat = k + 1 := by omega
    have hpow : ((d.digits * Nat.pow 10 (k + 1) : ℕ) : ℚ) * 10 ^ (-1 : ℤ) = d.digits * 10 ^ k := by
      push_cast [Nat.pow_eq]
      rw [pow_succ, zpow_neg_one]
      field_simp
    rw [hexponent, hpow, hk]
    rfl
  · rfl

/-! ## Rounding to a power of ten -/

theorem isClosest_self (ties : Ties) (m : ℕ) : IsClosest ties m m :=
  isClosest_of_half (by simp) fun _ _ h => by norm_num at h

/-- A numeral rounded to a power of ten has the closest multiple of it, half away from zero. -/
theorem Decimal.quantize_spec {d r : Decimal} {k : ℤ} (h : d.quantize k = .ok r) :
    r.negative = d.negative ∧ r.exponent = k ∧
      IsClosest .awayFromZero (d.digits * 10 ^ d.exponent / 10 ^ k) r.digits := by
  unfold Decimal.quantize at h
  split_ifs at h with hd hroom hk <;> cases h <;> refine ⟨rfl, rfl, ?_⟩
  · rw [hd, Nat.cast_zero, zero_mul, zero_div]
    exact isClosest_self _ 0
  · obtain ⟨j, hj⟩ := Int.eq_ofNat_of_zero_le (sub_nonneg.2 hk)
    obtain rfl : k = d.exponent - j := by omega
    have hvalue : (d.digits : ℚ) * 10 ^ d.exponent / 10 ^ (d.exponent - j) =
        (d.digits * Nat.pow 10 j : ℕ) := by
      rw [mul_div_assoc, ← zpow_sub₀ (by norm_num), sub_sub_cancel, zpow_natCast]
      push_cast [Nat.pow_eq]
      rfl
    rw [hvalue, hj]
    exact isClosest_self _ _
  · obtain ⟨j, hj⟩ := Int.eq_ofNat_of_zero_le (by omega : 0 ≤ k - d.exponent)
    obtain rfl : k = d.exponent + j := by omega
    have hvalue : (d.digits : ℚ) * 10 ^ d.exponent / 10 ^ (d.exponent + j) =
        d.digits / (Nat.pow 10 j : ℕ) := by
      rw [zpow_add₀ (by norm_num), zpow_natCast, mul_comm ((10 : ℚ) ^ d.exponent),
        mul_div_mul_right _ _ (by positivity)]
      push_cast [Nat.pow_eq]
      rfl
    rw [hvalue, hj]
    exact isClosest_roundQuotient .awayFromZero d.digits (Nat.pow_pos (by decide))

/-- The digits of a natural are counted by powers of ten. -/
theorem length_digitsOf_le_iff {n : ℕ} (hn : n ≠ 0) (j : ℤ) :
    ((digitsOf n).length : ℤ) ≤ j ↔ (n : ℚ) < 10 ^ j := by
  have hpos : 0 < (digitsOf n).length := Nat.length_toDigits_pos
  rcases lt_or_ge 0 j with hj | hj
  · obtain ⟨i, rfl⟩ := Int.eq_ofNat_of_zero_le hj.le
    have hlength := Nat.length_toDigits_le_iff (b := 10) (n := n) (k := i) (by decide) (by omega)
    rw [zpow_natCast, Nat.cast_le]
    exact hlength.trans (by exact_mod_cast Iff.rfl)
  · have hone : (1 : ℚ) ≤ n := by exact_mod_cast Nat.one_le_iff_ne_zero.2 hn
    have hpow : (10 : ℚ) ^ j ≤ 1 := zpow_le_one_of_nonpos₀ (by norm_num) hj
    exact ⟨fun h => by omega, fun h => absurd (h.trans_le hpow) (not_lt.2 hone)⟩

/-- **There is room for the digits of a result below `10 ^ (precision + k)`.** -/
theorem Decimal.quantize_ok_iff (d : Decimal) (k : ℤ) :
    (∃ r, d.quantize k = .ok r) ↔ |d.value| < 10 ^ (precision + k) := by
  have habs : |d.value| = d.digits * 10 ^ d.exponent := by
    rw [Decimal.value, abs_signedValue, abs_of_nonneg (by positivity)]
  rw [habs]
  unfold Decimal.quantize
  by_cases hd : d.digits = 0
  · rw [if_pos hd, hd, Nat.cast_zero, zero_mul]
    exact ⟨fun _ => by positivity, fun _ => ⟨_, rfl⟩⟩
  · have hroom : ¬ (precision : ℤ) < (digitsOf d.digits).length + (d.exponent - k) ↔
        (d.digits : ℚ) * 10 ^ d.exponent < 10 ^ (precision + k) := by
      have hsplit : (10 : ℚ) ^ (precision + k) =
          10 ^ (precision + k - d.exponent) * 10 ^ d.exponent := by
        rw [← zpow_add₀ (by norm_num), sub_add_cancel]
      rw [hsplit, mul_lt_mul_iff_left₀ (by positivity), ← length_digitsOf_le_iff hd]
      omega
    rw [if_neg hd, ← hroom]
    split_ifs with hfull hk
    · exact ⟨fun ⟨_, h⟩ => (nomatch h), fun h => absurd hfull h⟩
    · exact ⟨fun _ => hfull, fun _ => ⟨_, rfl⟩⟩
    · exact ⟨fun _ => hfull, fun _ => ⟨_, rfl⟩⟩

/-! ## The power of ten -/

/-- The exponent of the power of ten that a number of decimal places rounds to. Places
    before the point count only beyond the digits that a power of ten is kept to. -/
def roundingUnit (places : ℤ) : ℤ :=
  if 0 ≤ places then -places else max 0 (-places - (precision - 1))

/-- The least exponent of a power of ten. -/
def leastUnit : ℤ := -largestPower - (precision - 1)

theorem quantum?_eq_ok_iff {places k : ℤ} : quantum? places = .ok k ↔
    -places ≤ largestPower ∧ k = max (roundingUnit places) leastUnit := by
  have hprecision : (precision : ℤ) = 28 := rfl
  unfold quantum? roundingUnit leastUnit largestPower
  dsimp only
  rw [hprecision]
  split_ifs <;> simp only [Except.ok.injEq, false_iff] <;> omega

/-- A multiple of a unit that is closest to a value, the one of larger magnitude where two
    are as close. -/
structure IsRounding (unit v q : ℚ) : Prop where
  multiple : ∃ n : ℤ, q = n * unit
  closest : ∀ n : ℤ, |v - q| ≤ |v - n * unit|
  away : ∀ n : ℤ, |v - q| = |v - n * unit| → |n * unit| ≤ |q|

/-- An integer is a natural with a sign. -/
theorem exists_signedValue (n : ℤ) (unit : ℚ) :
    ∃ negative, n * unit = signedValue negative (n.natAbs * unit) := by
  rcases Int.natAbs_eq n with hn | hn
  · refine ⟨false, ?_⟩
    conv_lhs => rw [hn, Int.cast_natCast]
    rfl
  · refine ⟨true, ?_⟩
    conv_lhs => rw [hn, Int.cast_neg, Int.cast_natCast, neg_mul]
    rfl

/-- The closest natural number of units, with the sign of a value, is its rounding. -/
theorem isRounding_of_isClosest {unit v : ℚ} (hunit : 0 < unit) (hv : 0 ≤ v) {m : ℕ}
    (h : IsClosest .awayFromZero (v / unit) m) (negative : Bool) :
    IsRounding unit (signedValue negative v) (signedValue negative (m * unit)) := by
  have hnearest : ∀ a : ℕ, |v - m * unit| ≤ |v - a * unit| := by
    intro a
    rw [abs_sub_mul hunit, abs_sub_mul hunit]
    exact mul_le_mul_of_nonneg_right (h.abs_le a) hunit.le
  have hsigned : ∀ n : ℤ, |v - n.natAbs * unit| ≤ |signedValue negative v - n * unit| := by
    intro n
    obtain ⟨negative', hn⟩ := exists_signedValue n unit
    rw [hn]
    exact (abs_sub_le_signed hv (by positivity) negative negative').1
  refine ⟨⟨signed negative m, ?_⟩, fun n => ?_, fun n heq => ?_⟩
  · cases negative <;> simp [signedValue, signed]
  · rw [abs_signedValue_sub]
    exact (hnearest _).trans (hsigned n)
  · rw [abs_signedValue_sub] at heq
    have hsame : |v - m * unit| = |v - n.natAbs * unit| :=
      le_antisymm (hnearest n.natAbs) (heq ▸ hsigned n)
    have hle : n.natAbs ≤ m := by
      by_contra hlt
      rcases h n.natAbs (by omega) with hcloser | ⟨-, hless⟩
      · rw [abs_sub_mul hunit, abs_sub_mul hunit] at hsame
        exact hcloser.ne (mul_right_cancel₀ hunit.ne' hsame)
      · exact hlt (le_of_lt hless)
    obtain ⟨negative', hn⟩ := exists_signedValue n unit
    rw [hn, abs_signedValue, abs_signedValue, abs_of_nonneg (by positivity),
      abs_of_nonneg (by positivity)]
    gcongr

theorem isRounding_zero_iff {unit q : ℚ} : IsRounding unit 0 q ↔ q = 0 := by
  constructor
  · intro h
    have hle := h.closest 0
    rw [Int.cast_zero, zero_mul, sub_zero, abs_zero, zero_sub, abs_neg] at hle
    exact abs_nonpos_iff.1 hle
  · rintro rfl
    refine ⟨⟨0, by simp⟩, fun n => ?_, fun n heq => ?_⟩
    · rw [sub_zero, abs_zero]
      exact abs_nonneg _
    · rw [sub_zero, abs_zero, zero_sub, abs_neg] at heq
      rw [← heq, abs_zero]

/-- A numeral rounded to a power of ten is the rounding of its value. -/
theorem Decimal.isRounding_quantize {d r : Decimal} {k : ℤ} (h : d.quantize k = .ok r) :
    IsRounding (10 ^ k) d.value r.value := by
  obtain ⟨hnegative, hexponent, hclosest⟩ := quantize_spec h
  have hrounding := isRounding_of_isClosest (by positivity) (by positivity) hclosest d.negative
  rwa [Decimal.value, Decimal.value, hnegative, hexponent]

/-! ## Rounding a number -/

/-- The least power of ten is far below the least power of two. -/
theorem two_mul_leastUnit_le : 2 * (10 : ℚ) ^ (precision + leastUnit) ≤ 2 ^ leastExponent := by
  have hpow : (10 : ℚ) ^ (precision + leastUnit) ≤ (2 ^ 1075)⁻¹ := by
    calc (10 : ℚ) ^ (precision + leastUnit) ≤ 10 ^ (-(1075 : ℕ) : ℤ) :=
          zpow_le_zpow_right₀ (by norm_num) (by decide)
      _ = (10 ^ 1075)⁻¹ := by rw [zpow_neg, zpow_natCast]
      _ ≤ (2 ^ 1075)⁻¹ :=
        inv_anti₀ (by positivity) (pow_le_pow_left₀ (by norm_num) (by norm_num) _)
  calc 2 * (10 : ℚ) ^ (precision + leastUnit) ≤ 2 * (2 ^ 1075)⁻¹ := by gcongr
    _ = (2 ^ 1074)⁻¹ := by
      rw [pow_succ _ 1074]
      field_simp
    _ = 2 ^ leastExponent := by rw [leastExponent, zpow_neg, zpow_ofNat]

section
variable {x : Float} {d : Decimal} (hx : isFinite x = true) (hd : shortest x = some d)
include hx hd

theorem toDouble_of_shortest : d.toDouble = x := by
  obtain ⟨d', hd', hread⟩ := toDouble_shortest hx
  rw [hd] at hd'
  rwa [Option.some.inj hd']

/-- The numerals of numbers are not as small as the least powers of ten. -/
theorem leastUnit_le_value (hdigits : d.digits ≠ 0) : 10 ^ (precision + leastUnit) ≤ |d.value| := by
  obtain ⟨m, e, hparts, hnormal, -⟩ := parts_of_isFinite hx
  have hm : m ≠ 0 := by
    rintro rfl
    unfold shortest at hd
    rw [hparts] at hd
    exact hdigits (by rw [← Option.some.inj hd])
  have hleast := two_pow_le_exactValue hparts hm hnormal.least
  have htwice : |exactValue x| ≤ 2 * |d.value| := by
    have hnearest := d.isNearest_toDouble
    rw [toDouble_of_shortest hx hd] at hnearest
    exact hnearest.abs_exactValue_le
  have hsmall := two_mul_leastUnit_le
  linarith

/-- The numeral of a number is rounded to the power of ten of its places: the least power
    of ten is met for zero only. -/
theorem quantize_roundingUnit (places : ℤ) {k : ℤ} (hk : k = max (roundingUnit places) leastUnit) :
    (|d.value| < 10 ^ (precision + k) ↔ |d.value| < 10 ^ (precision + roundingUnit places)) ∧
      ∀ q, |d.value| < 10 ^ (precision + k) →
        (IsRounding (10 ^ k) d.value q ↔ IsRounding (10 ^ roundingUnit places) d.value q) := by
  rcases le_or_gt leastUnit (roundingUnit places) with hle | hlt
  · rw [hk, max_eq_left hle]
    exact ⟨Iff.rfl, fun _ _ => Iff.rfl⟩
  · rw [hk, max_eq_right hlt.le]
    by_cases hdigits : d.digits = 0
    · have hvalue : d.value = 0 := by
        rw [Decimal.value, hdigits, Nat.cast_zero, zero_mul, signedValue_zero]
      rw [hvalue, abs_zero]
      refine ⟨⟨fun _ => by positivity, fun _ => by positivity⟩, fun q _ => ?_⟩
      rw [isRounding_zero_iff, isRounding_zero_iff]
    · have hlow := leastUnit_le_value hx hd hdigits
      have hpow : (10 : ℚ) ^ (precision + roundingUnit places) ≤ 10 ^ (precision + leastUnit) :=
        zpow_le_zpow_right₀ (by norm_num) (by omega)
      refine ⟨⟨fun h => absurd h (not_lt.2 hlow), fun h => ?_⟩, fun q h => absurd h (not_lt.2 hlow)⟩
      exact absurd (h.trans_le hpow) (not_lt.2 hlow)

/-- The numeral that is rounded has the sign of the number. -/
theorem negative_written : (written d).negative = isNegative x := by
  rw [← toDouble_of_shortest hx hd, isNegative_toDouble]
  unfold written
  dsimp only
  split_ifs <;> rfl

/-- A number is rounded where there is room for the digits, to the double nearest to the
    rounding of its numeral. -/
theorem roundPlaces_spec (places : ℤ) :
    ((∃ r, roundPlaces x places = .ok r) ↔
      -places ≤ largestPower ∧ |d.value| < 10 ^ (precision + roundingUnit places)) ∧
    ∀ r, roundPlaces x places = .ok r →
      ∃ q, IsRounding (10 ^ roundingUnit places) d.value q ∧ IsNearest q r ∧
        isNegative r = isNegative x := by
  unfold roundPlaces
  cases hquantum : quantum? places with
  | error f =>
    have hplaces : ¬ -places ≤ largestPower := fun h => by
      have hok := quantum?_eq_ok_iff.2 ⟨h, rfl⟩
      rw [hquantum] at hok
      cases hok
    refine ⟨⟨fun ⟨_, h⟩ => (nomatch h), fun h => absurd h.1 hplaces⟩, fun _ h => (nomatch h)⟩
  | ok k =>
    obtain ⟨hplaces, hk⟩ := quantum?_eq_ok_iff.1 hquantum
    obtain ⟨hroom, hsame⟩ := quantize_roundingUnit hx hd places hk
    have hok := (written d).quantize_ok_iff k
    rw [value_written, hroom] at hok
    simp only [ok_bind, hd]
    cases hquantize : (written d).quantize k with
    | error f =>
      rw [hquantize] at hok
      refine ⟨⟨fun ⟨_, h⟩ => (nomatch h), fun h => ?_⟩, fun _ h => (nomatch h)⟩
      obtain ⟨_, h⟩ := hok.2 h.2
      cases h
    | ok q =>
      rw [hquantize] at hok
      have hfits := hok.1 ⟨q, rfl⟩
      refine ⟨⟨fun _ => ⟨hplaces, hfits⟩, fun _ => ⟨_, rfl⟩⟩, ?_⟩
      rintro r ⟨⟩
      obtain ⟨hnegative, -, -⟩ := Decimal.quantize_spec hquantize
      have hrounding := Decimal.isRounding_quantize hquantize
      rw [value_written, hsame _ (hroom.2 hfits)] at hrounding
      refine ⟨q.value, hrounding, q.isNearest_toDouble, ?_⟩
      rw [isNegative_toDouble, hnegative, negative_written hx hd]

end

end Number

/-! ## The function -/

namespace Library

variable {x y : Float} {places : ℤ}

/-- The function answers what rounding to so many places gives. -/
theorem answers_round_iff (hy : IsInteger y places) {v : Value} :
    Answers "round" [.number x, .number y] v ↔
      ∃ r, roundPlaces x places = .ok r ∧ v = .number r := by
  have hplaces : wholeOf "round" (.number y) = .ok places := wholeOf_eq_ok.2 ⟨y, rfl, hy⟩
  have hnumber : numberOf "round" (.number x) = .ok x := rfl
  refine (answers_iff (fun args => round (argument args 0) args[1]?)
    fun _ _ => ⟨_, rfl, rfl, fun _ _ => rfl⟩).trans ?_
  change round (.number x) (some (.number y)) = .ok v ↔ _
  simp only [round, hnumber, hplaces, Option.getD_some, ok_bind]
  cases roundPlaces x places with
  | error f => simp
  | ok r => simp [pure, Except.pure, eq_comm]

/-- **What rounding a finite number to decimal places gives.** With `v` the exact value of its
    canonical text, there is an answer exactly if `v` has room in the digits that are kept, and
    the power of ten is not beyond the largest. The answer is the double nearest to the
    multiple of `10 ^ roundingUnit places` that is closest to `v`, half away from zero, and
    has the sign of the number. -/
theorem round_half_away (hx : isFinite x = true) (hy : IsInteger y places) :
    ∃ d, numeral? (canonicalText x).toList = some d ∧
      ((∃ v, Answers "round" [.number x, .number y] v) ↔
        -places ≤ largestPower ∧ |d.value| < 10 ^ (precision + roundingUnit places)) ∧
      ∀ v, Answers "round" [.number x, .number y] v →
        ∃ r q, v = .number r ∧ IsRounding (10 ^ roundingUnit places) d.value q ∧
          IsNearest q r ∧ isNegative r = isNegative x := by
  obtain ⟨d, hd, -⟩ := toDouble_shortest hx
  obtain ⟨hanswers, hspec⟩ := roundPlaces_spec hx hd places
  refine ⟨written d, ?_, ?_, fun v hv => ?_⟩
  · rw [canonicalText, hd, String.toList_ofList, numeral?_canonical]
  · rw [value_written, ← hanswers]
    constructor
    · rintro ⟨v, hv⟩
      obtain ⟨r, hr, -⟩ := (answers_round_iff hy).1 hv
      exact ⟨r, hr⟩
    · rintro ⟨r, hr⟩
      exact ⟨_, (answers_round_iff hy).2 ⟨r, hr, rfl⟩⟩
  · obtain ⟨r, hr, rfl⟩ := (answers_round_iff hy).1 hv
    obtain ⟨q, hrounding, hnearest, hsign⟩ := hspec r hr
    rw [value_written]
    exact ⟨r, q, rfl, hrounding, hnearest, hsign⟩

/-- A price is rounded up at its third place by its digits, though the double lies below. -/
theorem price_rounded :
    Answers "round" [.number 2.675, .number 2.0] (.number 2.68) ∧
      ∃ q, IsRounding (10 ^ (-2 : ℤ)) 2.675 q ∧ IsNearest q 2.68 := by
  have hx : isFinite 2.675 = true := by decide +kernel
  have hy : IsInteger 2.0 2 := ⟨by decide +kernel, by decide +kernel⟩
  have hnumeral : numeral? (canonicalText 2.675).toList = some ⟨false, 2675, -3⟩ := by
    decide +kernel
  have hvalue : (⟨false, 2675, -3⟩ : Decimal).value = 2.675 := by
    norm_num [Decimal.value, signedValue]
  have hunit : roundingUnit 2 = -2 := rfl
  have hanswer : Answers "round" [.number 2.675, .number 2.0] (.number 2.68) :=
    (answers_round_iff hy).2 ⟨2.68, by decide +kernel, rfl⟩
  obtain ⟨d, hd, -, hspec⟩ := round_half_away hx hy
  rw [hnumeral] at hd
  obtain rfl := Option.some.inj hd
  obtain ⟨r, q, hr, hrounding, hnearest, -⟩ := hspec _ hanswer
  obtain rfl : (2.68 : Float) = r := Value.number.inj hr
  rw [hvalue, hunit] at hrounding
  exact ⟨hanswer, q, hrounding, hnearest⟩

/-- A number is not rounded to hundreds: 1234 stays, and is not the double nearest to the
    closest multiple of a hundred. -/
theorem hundreds_not_rounded :
    Answers "round" [.number 1234.0, .number (-2.0)] (.number 1234.0) ∧
      ∀ q, IsRounding (10 ^ (2 : ℤ)) 1234 q → ¬ IsNearest q 1234.0 := by
  have hy : IsInteger (-2.0) (-2) := ⟨by decide +kernel, by decide +kernel⟩
  refine ⟨(answers_round_iff hy).2 ⟨1234.0, by decide +kernel, rfl⟩, fun q hq hnearest => ?_⟩
  have hhundred : (10 : ℚ) ^ (2 : ℤ) = 100 := by norm_num
  rw [hhundred] at hq
  obtain ⟨n, rfl⟩ := hq.multiple
  have hclosest := hq.closest 12
  have htwelve : n = 12 := by
    rw [abs_le] at hclosest
    norm_num at hclosest
    have hlow : (11 : ℚ) < n := by linarith
    have hhigh : (n : ℚ) < 13 := by linarith
    have hlow' : 11 < n := by exact_mod_cast hlow
    have hhigh' : n < 13 := by exact_mod_cast hhigh
    omega
  have hle := hnearest.le 1200.0 (by decide +kernel)
  have hvalue : exactValue 1234.0 = 1234 ∧ exactValue 1200.0 = 1200 := by decide +kernel
  rw [htwelve, hvalue.1, hvalue.2] at hle
  norm_num at hle

end Library

end Rulebook

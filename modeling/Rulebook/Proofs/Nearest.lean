/-
  Reading a double back from its exact value.

  * `parts_of_isFinite`: a finite double is `± m · 2 ^ e` in the one form that its
    bits give (`Normal m e`).
  * `nearest_eq_of_ratio_eq`: the double nearest to a ratio that is exactly
    `m · 2 ^ e` is that double.
  * `toDouble_shortest`: the shortest numeral of a finite double reads back as the
    double, also where no short candidate does and the exact numeral is taken.
-/
import Rulebook.Proofs.Double
import Rulebook.Number.Decimal

namespace Rulebook.Number

/-! ## The parts of a finite double -/

/-- The significand and exponent that the bits of a finite double give: 53 bits
    in front of the least exponent, and all 53 beyond it. -/
structure Normal (m : ℕ) (e : ℤ) : Prop where
  lt : m < 2 ^ 53
  least : leastExponent ≤ e
  greatest : e ≤ 971
  full : leastExponent < e → 2 ^ 52 ≤ m

/-- The magnitude bits of `m · 2 ^ e`. -/
def normalBits (m : ℕ) (e : ℤ) : ℕ := (e - leastExponent).toNat * unitBit + m

theorem Normal.bits_lt {m : ℕ} {e : ℤ} (h : Normal m e) : normalBits m e < infinityBits := by
  obtain ⟨hlt, hleast, hgreatest, -⟩ := h
  simp only [normalBits, infinityBits, unitBit_eq, leastExponent] at *
  omega

theorem parts_of_isFinite {x : Float} (h : isFinite x = true) :
    ∃ m e, parts x = .finite (isNegative x) m e ∧ Normal m e ∧
      magnitudeBits x = normalBits m e := by
  rw [isFinite_iff] at h
  have hu := unitBit_eq
  have hfield : magnitudeBits x / unitBit ≠ 2047 := by
    simp only [infinityBits, hu] at h ⊢
    omega
  unfold parts
  dsimp only
  rw [if_neg hfield]
  simp only [infinityBits, hu] at h
  split_ifs with h0
  · refine ⟨_, _, rfl, ⟨?_, le_rfl, by decide, fun hlt => absurd hlt (lt_irrefl _)⟩, ?_⟩
    · rw [hu]; omega
    · simp only [normalBits, hu] at h0 ⊢; omega
  · refine ⟨_, _, rfl, ⟨?_, ?_, ?_, fun _ => ?_⟩, ?_⟩
    · rw [hu]; omega
    · rw [hu] at h0 ⊢; omega
    · simp only [leastExponent, hu]; omega
    · rw [hu]; omega
    · simp only [normalBits, hu] at h0 ⊢; omega

theorem eq_ofMagnitude_of_bits {x : Float} {m : ℕ} {e : ℤ} (h : magnitudeBits x = normalBits m e) :
    x = ofMagnitude (isNegative x) (normalBits m e) := by
  rw [← h, ofMagnitude_magnitudeBits]

/-! ## The nearest double of an exact ratio -/

theorem scaleDown_spec (num : ℕ) {den : ℕ} (hden : 0 < den) (e : ℤ) :
    0 < (scaleDown num den e).2 ∧
      ((scaleDown num den e).1 : ℚ) / (scaleDown num den e).2 = num / den / 2 ^ e := by
  have hden' : (den : ℚ) ≠ 0 := by positivity
  unfold scaleDown
  split_ifs with he
  · obtain ⟨k, rfl⟩ := Int.eq_ofNat_of_zero_le he
    refine ⟨by simpa [Nat.shiftLeft_eq] using hden, ?_⟩
    simp only [Int.toNat_natCast, Nat.shiftLeft_eq, zpow_natCast]
    push_cast
    field_simp
  · obtain ⟨k, hk⟩ := Int.eq_ofNat_of_zero_le (by omega : 0 ≤ -e)
    obtain rfl : e = -(k : ℤ) := by omega
    refine ⟨hden, ?_⟩
    simp only [neg_neg, Int.toNat_natCast, Nat.shiftLeft_eq, zpow_neg, zpow_natCast]
    push_cast
    field_simp

/-- A ratio that is a natural is rounded to it. -/
theorem roundQuotient_of_eq_mul {ties : Ties} {num den m : ℕ} (hden : 0 < den)
    (h : num = m * den) : roundQuotient ties num den = m := by
  subst h
  have hq : m * den / den = m := Nat.mul_div_cancel m hden
  have hr : m * den % den = 0 := Nat.mul_mod_left m den
  have hc : compare (2 * 0) den = .lt := by
    rw [Nat.compare_eq_lt]; omega
  simp only [roundQuotient, hq, hr, hc]

theorem eq_mul_of_div_eq {num den m : ℕ} (hden : 0 < den) (h : (num : ℚ) / den = m) :
    num = m * den := by
  have hden' : (den : ℚ) ≠ 0 := by positivity
  rw [div_eq_iff hden'] at h
  exact_mod_cast h

/-- The binary logarithms of a ratio bracket it. -/
theorem ratio_bounds {num den : ℕ} (hnum : num ≠ 0) (hden : den ≠ 0) :
    (2 : ℚ) ^ ((num.log2 : ℤ) - den.log2 - 1) < num / den ∧
      (num : ℚ) / den < 2 ^ ((num.log2 : ℤ) - den.log2 + 1) := by
  have hn := Nat.log2_self_le hnum
  have hd := Nat.log2_self_le hden
  have hn' := Nat.lt_log2_self (n := num)
  have hd' := Nat.lt_log2_self (n := den)
  have hn₁ : (2 : ℚ) ^ num.log2 ≤ num := by exact_mod_cast hn
  have hd₁ : (2 : ℚ) ^ den.log2 ≤ den := by exact_mod_cast hd
  have hn₂ : (num : ℚ) < 2 ^ (num.log2 + 1) := by exact_mod_cast hn'
  have hd₂ : (den : ℚ) < 2 ^ (den.log2 + 1) := by exact_mod_cast hd'
  have hpos : (0 : ℚ) < den := by positivity
  have hlo : (2 : ℚ) ^ ((num.log2 : ℤ) - den.log2 - 1) = 2 ^ num.log2 / 2 ^ (den.log2 + 1) := by
    rw [← zpow_natCast, ← zpow_natCast, ← zpow_sub₀ (by norm_num)]
    congr 1
    push_cast
    ring
  have hhi : (2 : ℚ) ^ ((num.log2 : ℤ) - den.log2 + 1) = 2 ^ (num.log2 + 1) / 2 ^ den.log2 := by
    rw [← zpow_natCast, ← zpow_natCast, ← zpow_sub₀ (by norm_num)]
    congr 1
    push_cast
    ring
  rw [hlo, hhi]
  constructor
  · rw [div_lt_div_iff₀ (by positivity) hpos]
    calc (2 : ℚ) ^ num.log2 * den ≤ num * den := by gcongr
      _ < num * 2 ^ (den.log2 + 1) := by
        have : (0 : ℚ) < num := by positivity
        gcongr
  · rw [div_lt_div_iff₀ hpos (by positivity)]
    calc (num : ℚ) * 2 ^ den.log2 ≤ num * den := by gcongr
      _ < 2 ^ (num.log2 + 1) * den := by gcongr

theorem scaleDown_of_exact {num den m : ℕ} {e : ℤ} (hden : 0 < den)
    (h : (num : ℚ) / den = m * 2 ^ e) : (scaleDown num den e).1 = m * (scaleDown num den e).2 := by
  obtain ⟨hpos, hratio⟩ := scaleDown_spec num hden e
  refine eq_mul_of_div_eq hpos ?_
  rw [hratio, h, mul_div_assoc, div_self (by positivity), mul_one]

theorem ne_zero_of_ratio_eq {num den m : ℕ} {e : ℤ} (hm : m ≠ 0)
    (h : (num : ℚ) / den = m * 2 ^ e) : num ≠ 0 := by
  have hm' : (1 : ℚ) ≤ m := by exact_mod_cast Nat.one_le_iff_ne_zero.2 hm
  rintro rfl
  have hpos : (0 : ℚ) < m * 2 ^ e := by positivity
  rw [← h] at hpos
  simp at hpos

section
variable {num den m : ℕ} {e : ℤ} (hm : m ≠ 0) (hden : 0 < den) (h : (num : ℚ) / den = m * 2 ^ e)
include hm hden h

theorem estimate_le (hlt : m < 2 ^ 53) : (num.log2 : ℤ) - den.log2 - 53 ≤ e := by
  obtain ⟨hlo, -⟩ := ratio_bounds (ne_zero_of_ratio_eq hm h) hden.ne'
  rw [h] at hlo
  have hlt' : (2 : ℚ) ^ ((num.log2 : ℤ) - den.log2 - 1) < 2 ^ (53 + e) := by
    rw [zpow_add₀ (by norm_num)]
    refine hlo.trans (mul_lt_mul_of_pos_right ?_ (by positivity))
    exact_mod_cast hlt
  rw [zpow_lt_zpow_iff_right₀ (by norm_num)] at hlt'
  omega

theorem le_estimate (hfull : 2 ^ 52 ≤ m) : e - 1 ≤ (num.log2 : ℤ) - den.log2 - 53 := by
  obtain ⟨-, hhi⟩ := ratio_bounds (ne_zero_of_ratio_eq hm h) hden.ne'
  rw [h] at hhi
  have hlt : (2 : ℚ) ^ (52 + e) < 2 ^ ((num.log2 : ℤ) - den.log2 + 1) := by
    rw [zpow_add₀ (by norm_num)]
    refine lt_of_le_of_lt (mul_le_mul_of_nonneg_right ?_ (by positivity)) hhi
    exact_mod_cast hfull
  rw [zpow_lt_zpow_iff_right₀ (by norm_num)] at hlt
  omega

/-- The exponent chosen for an exact `m · 2 ^ e` is `e`. -/
theorem binaryExponent_eq (hnormal : Normal m e) : binaryExponent num den = e := by
  have hup := estimate_le hm hden h hnormal.lt
  have hleast := hnormal.least
  rcases hleast.eq_or_lt with he | he
  · -- at the least exponent the estimate is cut off
    have hmax : max ((num.log2 : ℤ) - den.log2 - 53) leastExponent = e := by
      rw [← he] at hup ⊢
      exact max_eq_right hup
    obtain ⟨hpos, -⟩ := scaleDown_spec num hden e
    have hexact := scaleDown_of_exact hden h
    unfold binaryExponent
    dsimp only
    rw [hmax, hexact, Nat.mul_div_cancel m hpos, if_pos]
    rw [unitBit_eq]
    exact hnormal.lt
  · have hdown := le_estimate hm hden h (hnormal.full he)
    have hmax : max ((num.log2 : ℤ) - den.log2 - 53) leastExponent =
        (num.log2 : ℤ) - den.log2 - 53 := max_eq_left (by omega)
    unfold binaryExponent
    dsimp only
    rw [hmax, unitBit_eq]
    rcases eq_or_ne ((num.log2 : ℤ) - den.log2 - 53) e with hest | hest
    · obtain ⟨hpos, -⟩ := scaleDown_spec num hden e
      rw [hest, scaleDown_of_exact hden h, Nat.mul_div_cancel m hpos,
        if_pos (by have := hnormal.lt; omega)]
    · -- one exponent lower the significand has 54 bits
      obtain rfl : e = (num.log2 : ℤ) - den.log2 - 53 + 1 := by omega
      have h2 : (num : ℚ) / den = (2 * m : ℕ) * 2 ^ ((num.log2 : ℤ) - den.log2 - 53) := by
        rw [h, zpow_add_one₀ (by norm_num)]
        push_cast
        ring
      obtain ⟨hpos, -⟩ := scaleDown_spec num hden ((num.log2 : ℤ) - den.log2 - 53)
      have hfull := hnormal.full he
      rw [scaleDown_of_exact hden h2, Nat.mul_div_cancel _ hpos, if_neg (by omega)]

end

/-- The double nearest to what is exactly a double is that double. -/
theorem nearest_eq_of_ratio_eq {negative : Bool} {num den m : ℕ} {e : ℤ} (hm : m ≠ 0)
    (hden : 0 < den) (hnormal : Normal m e) (h : (num : ℚ) / den = m * 2 ^ e) :
    nearest negative num den = ofMagnitude negative (normalBits m e) := by
  obtain ⟨hpos, -⟩ := scaleDown_spec num hden e
  unfold nearest
  rw [if_neg (ne_zero_of_ratio_eq hm h)]
  dsimp only
  rw [binaryExponent_eq hm hden h hnormal, roundQuotient_of_eq_mul hpos (scaleDown_of_exact hden h)]
  change ofMagnitude negative (min (normalBits m e) infinityBits) = _
  rw [min_eq_left hnormal.bits_lt.le]

/-! ## Numerals of doubles -/

theorem nearest_eq_ofMagnitude (num den : ℕ) :
    ∃ bits ≤ infinityBits, ∀ negative, nearest negative num den = ofMagnitude negative bits := by
  by_cases hnum : num = 0
  · exact ⟨0, Nat.zero_le _, fun negative => if_pos hnum⟩
  · exact ⟨_, min_le_right _ _, fun negative => if_neg hnum⟩

/-- The magnitude of what reads as a number does not depend on its sign. -/
theorem toDouble_eq_ofMagnitude (digits : ℕ) (exponent : ℤ) :
    ∃ bits ≤ infinityBits, ∀ negative,
      (⟨negative, digits, exponent⟩ : Decimal).toDouble = ofMagnitude negative bits := by
  unfold Decimal.toDouble
  dsimp only
  split_ifs
  · exact ⟨0, Nat.zero_le _, fun _ => rfl⟩
  · exact ⟨infinityBits, le_rfl, fun _ => rfl⟩
  · exact ⟨0, Nat.zero_le _, fun _ => rfl⟩
  · exact nearest_eq_ofMagnitude _ _
  · exact nearest_eq_ofMagnitude _ _

/-- The sign of a numeral is the sign of its double. -/
theorem isNegative_toDouble (d : Decimal) : isNegative d.toDouble = d.negative := by
  obtain ⟨bits, hbits, hd⟩ := toDouble_eq_ofMagnitude d.digits d.exponent
  rw [hd d.negative, isNegative_ofMagnitude hbits]

/-- The numeral without its sign has the double without its sign. -/
theorem toDouble_unsigned (d : Decimal) :
    { d with negative := false }.toDouble = abs d.toDouble := by
  obtain ⟨bits, hbits, hd⟩ := toDouble_eq_ofMagnitude d.digits d.exponent
  rw [hd false, hd d.negative, abs, magnitudeBits_ofMagnitude hbits]

/-- What reads as a number reads as a finite one, or as infinity with its sign. -/
theorem isFinite_or_infinity_toDouble (d : Decimal) :
    isFinite d.toDouble = true ∨ d.toDouble = infinity d.negative := by
  obtain ⟨bits, hbits, hd⟩ := toDouble_eq_ofMagnitude d.digits d.exponent
  rw [hd d.negative]
  rcases hbits.lt_or_eq with hlt | rfl
  · exact .inl (isFinite_iff.2 (by rwa [magnitudeBits_ofMagnitude hbits]))
  · exact .inr rfl

/-- A double written out exactly reads back. -/
theorem toDouble_exactDecimal {negative : Bool} {m : ℕ} {e : ℤ} (hm : m ≠ 0)
    (hnormal : Normal m e) :
    (exactDecimal negative m e).toDouble = ofMagnitude negative (normalBits m e) := by
  unfold exactDecimal
  split_ifs with he
  · have hdigits : m * Nat.pow 2 e.toNat ≠ 0 := Nat.mul_ne_zero hm (Nat.pow_pos (by omega)).ne'
    unfold Decimal.toDouble
    simp only [hdigits, if_false, Decimal.farExponent]
    rw [if_neg (by omega), if_neg (by omega), if_pos le_rfl]
    refine nearest_eq_of_ratio_eq hm one_pos hnormal ?_
    obtain ⟨k, rfl⟩ := Int.eq_ofNat_of_zero_le he
    simp [zpow_natCast]
  · obtain ⟨k, hk⟩ := Int.eq_ofNat_of_zero_le (by omega : 0 ≤ -e)
    obtain rfl : e = -(k : ℤ) := by omega
    simp only [neg_neg, Int.toNat_natCast]
    have hdigits : m * Nat.pow 5 k ≠ 0 := Nat.mul_ne_zero hm (Nat.pow_pos (by omega)).ne'
    -- the digits are many enough for the exponent not to be far
    have hlog : k ≤ (m * Nat.pow 5 k).log2 := by
      rw [Nat.le_log2 hdigits]
      calc 2 ^ k ≤ Nat.pow 5 k := Nat.pow_le_pow_left (by omega) k
        _ ≤ m * Nat.pow 5 k := Nat.le_mul_of_pos_left _ (Nat.pos_of_ne_zero hm)
    unfold Decimal.toDouble
    simp only [hdigits, if_false, Decimal.farExponent, neg_neg, Int.toNat_natCast]
    rw [if_neg (by omega), if_neg (by omega), if_neg he]
    refine nearest_eq_of_ratio_eq hm (Nat.pow_pos (by omega)) hnormal ?_
    have h10 : (Nat.pow 10 k : ℚ) = 5 ^ k * 2 ^ k := by
      rw [← mul_pow]
      norm_num
    push_cast
    simp only [Nat.pow_eq] at h10 ⊢
    push_cast at h10 ⊢
    rw [h10, zpow_neg, zpow_natCast]
    field_simp

/-- Candidates are read back before one is taken. -/
theorem toDouble_find_getD (candidates : List Decimal) {d : Decimal} {x : Float}
    (h : d.toDouble = x) :
    ((candidates.find? fun d => same d.toDouble x).getD d).toDouble = x := by
  cases hfind : candidates.find? fun d => same d.toDouble x with
  | none => exact h
  | some c =>
    have hsame := @List.find?_some _ (fun d : Decimal => same d.toDouble x) c candidates hfind
    exact eq_of_toBits_eq (eq_of_beq hsame)

/-- **A finite double's shortest numeral reads back.** -/
theorem toDouble_shortest {x : Float} (h : isFinite x = true) :
    ∃ d, shortest x = some d ∧ d.toDouble = x := by
  obtain ⟨m, e, hparts, hnormal, hbits⟩ := parts_of_isFinite h
  have hx := eq_ofMagnitude_of_bits hbits
  unfold shortest
  rw [hparts]
  cases m with
  | zero =>
    refine ⟨_, rfl, ?_⟩
    have he : e = leastExponent := by
      by_contra hne
      have := hnormal.full (lt_of_le_of_ne hnormal.least (Ne.symm hne))
      omega
    rw [hx, he]
    simp [Decimal.toDouble, zero, normalBits, isNegative_ofMagnitude]
  | succ m =>
    refine ⟨_, rfl, toDouble_find_getD _ ?_⟩
    rw [toDouble_exactDecimal (Nat.succ_ne_zero m) hnormal, ← hx]

end Rulebook.Number

/-
  The three ways of printing a number, and the ways of reading it again.

  * `IsExact n`: the naturals below `2 ^ 54` that are doubles; `exists_exact`: any other
    below `10 ^ 16` is rounded to one of them beside it.
  * `whole_of_nearest`, `exists_nearest_of_whole`: whole doubles as such naturals.
  * `shortest_whole`: the shortest numeral of a whole number below `10 ^ 16` is the number.
  * `spelledOut_canonical`: the canonical form of a numeral with its exponent spelled out is
    its plain form.
  * `numberText_eq_printed`: the shortest numeral of a finite number, put by position, is the
    integer if the number is whole and below `10 ^ 16`, else its canonical text where that has
    no exponent, else that text with the exponent spelled out.
  * `toText_read_back`: each of the three readers gives the number again: the numeric reading
    of a text, the reading of an argument, and for a positive number the tokenizer.
-/
import Rulebook.Proofs.NumberText

namespace Rulebook

open Text Number

namespace Number

/-! ## Whole numbers as doubles -/

/-- A natural below `2 ^ 54` that is a double: an even one, or one below `2 ^ 53`. -/
def IsExact (n : ℕ) : Prop := n < 2 ^ 53 ∨ n < 2 ^ 54 ∧ n % 2 = 0

variable {negative : Bool} {m n : ℕ} {e : ℤ} {x : Float}

theorem IsExact.exists_normal (h : IsExact n) : ∃ m e, Normal m e ∧ (n : ℚ) = m * 2 ^ e := by
  rcases eq_or_ne n 0 with rfl | hn
  · exact ⟨0, leastExponent, ⟨by decide, le_rfl, by decide, fun h => absurd h (lt_irrefl _)⟩,
      by simp⟩
  have hlow := Nat.log2_self_le hn
  have hhigh := Nat.lt_log2_self (n := n)
  by_cases hlog : n.log2 ≤ 52
  · -- the significand is filled up to 53 bits
    have hpow : 2 ^ n.log2 * 2 ^ (52 - n.log2) = 2 ^ 52 := by
      rw [← pow_add, Nat.add_sub_cancel' hlog]
    have hpow' : 2 ^ (n.log2 + 1) * 2 ^ (52 - n.log2) = 2 ^ 53 := by
      rw [pow_succ, mul_right_comm, hpow, ← pow_succ]
    refine ⟨n * 2 ^ (52 - n.log2), (n.log2 : ℤ) - 52, ⟨?_, ?_, by omega, fun _ => ?_⟩, ?_⟩
    · calc n * 2 ^ (52 - n.log2) < 2 ^ (n.log2 + 1) * 2 ^ (52 - n.log2) := by gcongr
        _ = 2 ^ 53 := hpow'
    · simp only [leastExponent]
      omega
    · calc 2 ^ 52 = 2 ^ n.log2 * 2 ^ (52 - n.log2) := hpow.symm
        _ ≤ n * 2 ^ (52 - n.log2) := by gcongr
    · have hexp : (n.log2 : ℤ) - 52 = -((52 - n.log2 : ℕ) : ℤ) := by omega
      rw [hexp, zpow_neg, zpow_natCast]
      push_cast
      field_simp
  · have hlarge : 2 ^ 53 ≤ n := le_trans (Nat.pow_le_pow_right (by decide) (by omega)) hlow
    obtain hsmall | ⟨hlt, heven⟩ := h
    · exact absurd hsmall (not_lt.2 hlarge)
    · refine ⟨n / 2, 1, ⟨by omega, by decide, by decide, fun _ => by omega⟩, ?_⟩
      have hhalf : n = n / 2 * 2 := by omega
      rw [zpow_one]
      exact_mod_cast hhalf

theorem nearest_of_normal (hnormal : Normal m e) (h : (n : ℚ) = m * 2 ^ e) :
    nearest negative n 1 = ofMagnitude negative (normalBits m e) := by
  rcases eq_or_ne m 0 with rfl | hm
  · have hn : n = 0 := by simpa using h
    have he : e = leastExponent := by
      by_contra hne
      have := hnormal.full (lt_of_le_of_ne hnormal.least (Ne.symm hne))
      omega
    rw [nearest, if_pos hn, zero, normalBits, he, sub_self, Int.toNat_zero, zero_mul]
  · exact nearest_eq_of_ratio_eq hm one_pos hnormal (by simpa using h)

/-- Doubles have one normal form. -/
theorem Normal.unique {m' : ℕ} {e' : ℤ} (h : Normal m e) (h' : Normal m' e')
    (hbits : normalBits m e = normalBits m' e') : m = m' ∧ e = e' := by
  obtain ⟨hlt, hleast, -, hfull⟩ := h
  obtain ⟨hlt', hleast', -, hfull'⟩ := h'
  simp only [normalBits, unitBit_eq, leastExponent] at *
  omega

/-- Different such naturals are different doubles. -/
theorem IsExact.nearest_inj {n' : ℕ} (h : IsExact n) (h' : IsExact n')
    (heq : nearest negative n 1 = nearest negative n' 1) : n = n' := by
  obtain ⟨m, e, hnormal, hn⟩ := h.exists_normal
  obtain ⟨m', e', hnormal', hn'⟩ := h'.exists_normal
  rw [nearest_of_normal hnormal hn, nearest_of_normal hnormal' hn'] at heq
  have hbits := congrArg magnitudeBits heq
  rw [magnitudeBits_ofMagnitude hnormal.bits_lt.le,
    magnitudeBits_ofMagnitude hnormal'.bits_lt.le] at hbits
  obtain ⟨rfl, rfl⟩ := hnormal.unique hnormal' hbits
  exact_mod_cast hn.trans hn'.symm

/-- Beyond `2 ^ 53` an odd natural is rounded to an even one beside it. -/
theorem exists_exact (hn : n < 10 ^ 16) :
    ∃ n' ≤ 10 ^ 16, IsExact n' ∧ ∀ negative, nearest negative n 1 = nearest negative n' 1 := by
  by_cases hexact : IsExact n
  · exact ⟨n, hn.le, hexact, fun _ => rfl⟩
  simp only [IsExact, not_or, not_and, not_lt] at hexact
  obtain ⟨hlow, hodd⟩ := hexact
  have hhigh : n < 2 ^ 54 := lt_trans hn (by decide)
  have hround : roundQuotient .toEven n 2 = n / 2 + n / 2 % 2 := by
    have hhalf : compare (2 * (n % 2)) 2 = .eq := by
      rw [Nat.compare_eq_eq]
      have := hodd hhigh
      omega
    simp only [roundQuotient, hhalf]
  have hnormal : Normal (n / 2 + n / 2 % 2) 1 :=
    ⟨by omega, by decide, by decide, fun _ => by omega⟩
  refine ⟨2 * (n / 2 + n / 2 % 2), by omega, .inr ⟨by omega, by omega⟩, fun negative => ?_⟩
  have hexponent : binaryExponent n 1 = 1 := by
    have hlog : n.log2 = 53 := (Nat.log2_eq_iff (by omega)).2 ⟨hlow, hhigh⟩
    have hlog' : Nat.log2 1 = 0 := rfl
    have hshift : scaleDown n 1 0 = (n, 1) := rfl
    have hmax : max ((53 : ℕ) - (0 : ℕ) - 53 : ℤ) leastExponent = 0 := rfl
    unfold binaryExponent
    dsimp only
    rw [hlog, hlog', hmax, hshift, unitBit_eq, if_neg (by dsimp only; omega)]
    rfl
  have hdown : scaleDown n 1 1 = (n, 2) := rfl
  have heven : nearest negative (2 * (n / 2 + n / 2 % 2)) 1 =
      ofMagnitude negative (normalBits (n / 2 + n / 2 % 2) 1) :=
    nearest_of_normal hnormal (by push_cast; ring)
  rw [heven]
  unfold nearest
  rw [if_neg (by omega)]
  dsimp only
  rw [hexponent, hdown, hround]
  change ofMagnitude negative (min (normalBits _ 1) infinityBits) = _
  rw [min_eq_left hnormal.bits_lt.le]

/-! ## Whole doubles -/

theorem ratio_spec (m : ℕ) (e : ℤ) :
    0 < (ratio m e).2 ∧ ((ratio m e).1 : ℚ) / (ratio m e).2 = m * 2 ^ e := by
  unfold ratio
  split_ifs with he
  · obtain ⟨k, rfl⟩ := Int.eq_ofNat_of_zero_le he
    simp [Nat.shiftLeft_eq]
  · obtain ⟨k, hk⟩ := Int.eq_ofNat_of_zero_le (by omega : 0 ≤ -e)
    obtain rfl : e = -(k : ℤ) := by omega
    simp [Nat.shiftLeft_eq, div_eq_mul_inv]

/-- A double that is the natural nearest to it, with a sign. -/
theorem nearest_parts (negative : Bool) (h : IsExact n) :
    ∃ m e, parts (nearest negative n 1) = .finite negative m e ∧
      (ratio m e).1 = n * (ratio m e).2 := by
  obtain ⟨m, e, hnormal, hn⟩ := h.exists_normal
  have hx : nearest negative n 1 = ofMagnitude negative (normalBits m e) :=
    nearest_of_normal hnormal hn
  have hbits := hnormal.bits_lt
  have hmagnitude : magnitudeBits (nearest negative n 1) = normalBits m e := by
    rw [hx, magnitudeBits_ofMagnitude hbits.le]
  have hfinite : isFinite (nearest negative n 1) = true := by
    rwa [isFinite_iff, hmagnitude]
  obtain ⟨m', e', hparts, hnormal', hbits'⟩ := parts_of_isFinite hfinite
  obtain ⟨rfl, rfl⟩ := hnormal.unique hnormal' (hmagnitude.symm.trans hbits')
  have hnegative : isNegative (nearest negative n 1) = negative := by
    rw [hx, isNegative_ofMagnitude hbits.le]
  rw [hnegative] at hparts
  obtain ⟨hden, hratio⟩ := ratio_spec m e
  exact ⟨m, e, hparts, eq_mul_of_div_eq hden (hratio.trans hn.symm)⟩

/-- Such a natural, with a sign, is a whole double. -/
theorem whole_of_nearest (negative : Bool) (h : IsExact n) :
    isWhole (nearest negative n 1) = true ∧
      trunc? (nearest negative n 1) = some (signed negative n) := by
  obtain ⟨m, e, hparts, hratio⟩ := nearest_parts negative h
  obtain ⟨hden, -⟩ := ratio_spec m e
  constructor
  · rw [isWhole, hparts]
    simp [hratio]
  · rw [trunc?, hparts]
    simp [hratio, hden]

theorem natAbs_signed (negative : Bool) (n : ℕ) : (signed negative n).natAbs = n := by
  cases negative <;> simp [signed]

/-- A whole double below `10 ^ 16` is such a natural, with a sign. -/
theorem exists_nearest_of_whole {i : ℤ} (hfinite : isFinite x = true) (hwhole : isWhole x = true)
    (htrunc : trunc? x = some i) (hi : i.natAbs < 10 ^ 16) :
    IsExact i.natAbs ∧ x = nearest (isNegative x) i.natAbs 1 ∧
      i = signed (isNegative x) i.natAbs := by
  obtain ⟨m, e, hparts, hnormal, hbits⟩ := parts_of_isFinite hfinite
  obtain ⟨hden, hratio⟩ := ratio_spec m e
  have hmod : (ratio m e).1 % (ratio m e).2 = 0 := by simpa [isWhole, hparts] using hwhole
  have hvalue : signed (isNegative x) ((ratio m e).1 / (ratio m e).2) = i := by
    simpa [trunc?, hparts] using htrunc
  have hnat : i.natAbs = (ratio m e).1 / (ratio m e).2 := by rw [← hvalue, natAbs_signed]
  have hexact : (i.natAbs : ℚ) = m * 2 ^ e := by
    rw [← hratio, hnat, Nat.cast_div (Nat.dvd_of_mod_eq_zero hmod) (by positivity)]
  refine ⟨?_, ?_, by rw [hnat, hvalue]⟩
  · rcases le_or_gt e 0 with he | he
    · -- the natural is no larger than the significand
      have hle : (i.natAbs : ℚ) ≤ m := by
        rw [hexact]
        exact mul_le_of_le_one_right (by positivity) (zpow_le_one_of_nonpos₀ (by norm_num) he)
      have hle' : i.natAbs ≤ m := by exact_mod_cast hle
      exact .inl (lt_of_le_of_lt hle' hnormal.lt)
    · obtain ⟨k, rfl⟩ : ∃ k : ℕ, e = (k + 1 : ℕ) := ⟨(e - 1).toNat, by omega⟩
      have hmul : i.natAbs = m * 2 ^ (k + 1) := by
        rw [zpow_natCast] at hexact
        exact_mod_cast hexact
      refine .inr ⟨lt_trans hi (by decide), ?_⟩
      rw [hmul, pow_succ, ← mul_assoc]
      exact Nat.mul_mod_left _ 2
  · rw [nearest_of_normal hnormal hexact]
    exact eq_ofMagnitude_of_bits hbits

/-! ## The shortest numeral of a whole double -/

/-- The natural that a numeral without places behind the point stands for. -/
def Decimal.whole (d : Decimal) : ℕ := d.digits * 10 ^ d.exponent.toNat

theorem toDouble_whole {d : Decimal} (he : 0 ≤ d.exponent) (hlt : d.whole < 2 ^ 54) :
    d.toDouble = nearest d.negative d.whole 1 := by
  by_cases hd : d.digits = 0
  · rw [Decimal.toDouble, if_pos hd, Decimal.whole, hd, zero_mul, nearest, if_pos rfl]
  · have hpow : 10 ^ d.exponent.toNat < 10 ^ 17 := by
      calc 10 ^ d.exponent.toNat ≤ d.whole := Nat.le_mul_of_pos_left _ (Nat.pos_of_ne_zero hd)
        _ < 2 ^ 54 := hlt
        _ < 10 ^ 17 := by decide
    have hexp : d.exponent.toNat < 17 := (Nat.pow_lt_pow_iff_right (by decide)).1 hpow
    have hfar : ¬ Decimal.farExponent < d.exponent := by
      simp only [Decimal.farExponent]
      omega
    have hfar' : ¬ d.exponent < -(Decimal.farExponent + d.digits.log2) := by
      simp only [Decimal.farExponent]
      omega
    rw [Decimal.toDouble, if_neg hd, if_neg hfar, if_neg hfar', if_pos he]
    rfl

/-- Dropping zeros changes neither the natural nor its sign. -/
theorem trimFrom_whole (fuel : ℕ) {d : Decimal} (he : 0 ≤ d.exponent) :
    (Decimal.trimFrom fuel d).negative = d.negative ∧
      0 ≤ (Decimal.trimFrom fuel d).exponent ∧ (Decimal.trimFrom fuel d).whole = d.whole := by
  induction fuel generalizing d with
  | zero => exact ⟨rfl, he, rfl⟩
  | succ fuel ih =>
    rw [Decimal.trimFrom]
    split_ifs with hd
    · have he' : 0 ≤ d.exponent + 1 := by omega
      have hwhole : (⟨d.negative, d.digits / 10, d.exponent + 1⟩ : Decimal).whole = d.whole := by
        have hten : d.digits = d.digits / 10 * 10 := by omega
        have hexp : (d.exponent + 1).toNat = d.exponent.toNat + 1 := by omega
        unfold Decimal.whole
        dsimp only
        rw [hexp, pow_succ, mul_comm (10 ^ _), ← mul_assoc, ← hten]
      obtain ⟨hnegative, hexponent, hvalue⟩ :=
        ih (d := ⟨d.negative, d.digits / 10, d.exponent + 1⟩) he'
      exact ⟨hnegative, hexponent, hvalue.trans hwhole⟩
    · exact ⟨rfl, he, rfl⟩

section
variable {num den : ℕ} (hden : 0 < den) (hnum : num = n * den) (hpos : 0 < n) (hn : n < 10 ^ 16)
include hden hnum hpos hn

/-- A whole number below `10 ^ 16` has at most sixteen digits. -/
theorem decimalPoint_whole : 1 ≤ decimalPoint num den ∧ decimalPoint num den ≤ 16 := by
  have hnum' : num ≠ 0 := by
    rw [hnum]
    exact (Nat.mul_pos hpos hden).ne'
  have hratio : (num : ℚ) / den = n := by
    rw [hnum]
    push_cast
    field_simp
  obtain ⟨hlow, hhigh⟩ := ratio_bounds hnum' hden.ne'
  rw [hratio] at hlow hhigh
  have hupper : (num.log2 : ℤ) - den.log2 - 1 < 54 := by
    have hlt : (n : ℚ) < 2 ^ (54 : ℤ) := by
      have : n < 2 ^ 54 := lt_trans hn (by decide)
      exact_mod_cast this
    exact (zpow_lt_zpow_iff_right₀ (by norm_num)).1 (hlow.trans hlt)
  have hlower : 0 < (num.log2 : ℤ) - den.log2 + 1 := by
    have hone : (2 : ℚ) ^ (0 : ℤ) ≤ n := by
      rw [zpow_zero]
      exact_mod_cast hpos
    exact (zpow_lt_zpow_iff_right₀ (by norm_num)).1 (lt_of_le_of_lt hone hhigh)
  -- the number is below `10 ^ 16`, and not below `10 ^ p` for any lesser `p` than one
  have hsixteen : (scaleDownDecimal num den 16).1 < (scaleDownDecimal num den 16).2 := by
    change num < den * 10 ^ 16
    rw [hnum, mul_comm]
    exact Nat.mul_lt_mul_of_pos_left hn hden
  have hone : ∀ p, (scaleDownDecimal num den p).1 < (scaleDownDecimal num den p).2 → 1 ≤ p := by
    intro p hp
    by_contra hlt
    have hle : den ≤ num := hnum ▸ Nat.le_mul_of_pos_left den hpos
    unfold scaleDownDecimal at hp
    split_ifs at hp with h0
    · obtain rfl : p = 0 := by omega
      simp at hp
      omega
    · have : num ≤ num * Nat.pow 10 (-p).toNat := Nat.le_mul_of_pos_right _ (Nat.pow_pos (by decide))
      dsimp only at hp
      omega
  unfold decimalPoint
  dsimp only
  generalize hestimate : ((num.log2 : ℤ) - den.log2) * 30103 / 100000 = estimate
  have hrange : 0 ≤ estimate ∧ estimate ≤ 16 := by omega
  simp only [decide_eq_true_eq]
  split_ifs with h₁ h₂ h₃
  · have := hone _ h₁
    omega
  · have := hone _ h₂
    omega
  · have hne : estimate ≠ 16 := by
      rintro rfl
      exact h₂ hsixteen
    omega
  · have hne : estimate ≠ 16 := by
      rintro rfl
      exact h₂ hsixteen
    have hne' : estimate ≠ 15 := by
      rintro rfl
      exact h₃ hsixteen
    omega

end

/-- The numerals beside a whole number with a few places left off in front of the point. -/
theorem neighbours_whole {num den : ℕ} (hden : 0 < den) (hnum : num = n * den) {point : ℤ}
    {count : ℕ} (hcount : count ≤ point) {d : Decimal}
    (hd : d ∈ neighbours negative num den point count) :
    d.negative = negative ∧ d.exponent = point - count ∧
      (d.digits = n / 10 ^ (point - count).toNat ∨
        d.digits = n / 10 ^ (point - count).toNat + 1) := by
  have hscale : scaleDownDecimal num den (point - count) =
      (num, den * Nat.pow 10 (point - count).toNat) := if_pos (by omega)
  have hquotient : num / (den * Nat.pow 10 (point - count).toNat) =
      n / 10 ^ (point - count).toNat := by
    rw [hnum, mul_comm n]
    exact Nat.mul_div_mul_left _ _ hden
  unfold neighbours at hd
  simp only [hscale, hquotient] at hd
  split_ifs at hd <;> simp only [List.mem_cons, List.not_mem_nil, or_false] at hd <;>
    rcases hd with rfl | rfl <;> simp

section
variable {num den : ℕ} (hden : 0 < den) (hnum : num = n * den) (hn : n < 10 ^ 16)
  (hexact : IsExact n)
include hden hnum hn hexact

/-- With fewer digits than the number has, only the number itself is read as its double. -/
theorem whole_of_candidate {point : ℤ} {count : ℕ} (hhigh : point ≤ 16) (hpos : 0 < count)
    (hcount : count < point) {d : Decimal} (hd : d ∈ neighbours negative num den point count)
    (hread : d.trim.toDouble = nearest negative n 1) :
    d.trim.negative = negative ∧ 0 ≤ d.trim.exponent ∧ d.trim.whole = n := by
  obtain ⟨hnegative, hexponent, hdigits⟩ := neighbours_whole hden hnum hcount.le hd
  obtain ⟨k, hk⟩ : ∃ k : ℕ, point - count = (k + 1 : ℕ) := ⟨(point - count - 1).toNat, by omega⟩
  have htens : (point - count).toNat = k + 1 := by omega
  rw [htens] at hdigits
  obtain ⟨htrim, hplaces, hwhole⟩ := trimFrom_whole d.digits.log2 (d := d) (by omega)
  rw [hnegative] at htrim
  have hvalue : d.whole = d.digits * 10 ^ (k + 1) := by rw [Decimal.whole, hexponent, htens]
  have heven : d.whole % 2 = 0 := by
    rw [hvalue, pow_succ, ← mul_assoc]
    omega
  have hlt : d.whole < 2 ^ 54 := by
    have hle : d.digits ≤ n / 10 ^ (k + 1) + 1 := by omega
    have hk' : k + 1 ≤ 15 := by omega
    calc d.whole ≤ (n / 10 ^ (k + 1) + 1) * 10 ^ (k + 1) := by
          rw [hvalue]
          exact Nat.mul_le_mul_right _ hle
      _ = n / 10 ^ (k + 1) * 10 ^ (k + 1) + 10 ^ (k + 1) := by rw [add_mul, one_mul]
      _ ≤ n + 10 ^ 15 :=
          Nat.add_le_add (Nat.div_mul_le_self _ _) (Nat.pow_le_pow_right (by decide) hk')
      _ < 2 ^ 54 := by omega
  have hnearest : d.trim.toDouble = nearest negative d.whole 1 := by
    have h := toDouble_whole hplaces (hwhole ▸ hlt)
    rwa [htrim, hwhole] at h
  refine ⟨htrim, hplaces, hwhole.trans ?_⟩
  exact IsExact.nearest_inj (.inr ⟨hlt, heven⟩) hexact (hnearest.symm.trans hread)

/-- The search ends with the number, at the latest when all its digits are there. -/
theorem find_whole (negative : Bool) {point : ℤ} (hlow : 1 ≤ point) (hhigh : point ≤ 16) :
    ∃ d, (((List.range 17).flatMap fun i =>
        (neighbours negative num den point (i + 1)).map Decimal.trim).find? fun d =>
          same d.toDouble (nearest negative n 1)) = some d ∧
      d.negative = negative ∧ 0 ≤ d.exponent ∧ d.whole = n := by
  have hsame : ∀ {d : Decimal}, same d.toDouble (nearest negative n 1) = true →
      d.toDouble = nearest negative n 1 := fun h => eq_of_toBits_eq (eq_of_beq h)
  obtain ⟨j, rfl⟩ : ∃ j : ℕ, point = j + 1 := ⟨(point - 1).toNat, by omega⟩
  obtain ⟨t, ht⟩ : ∃ t, 17 = j + (t + 1) := ⟨16 - j, by omega⟩
  -- the number with all its digits
  have hscale : scaleDownDecimal num den ((j + 1 : ℤ) - (j + 1 : ℕ)) = (num, den) := by
    have hzero : ((j + 1 : ℤ) - (j + 1 : ℕ)) = 0 := by omega
    rw [hzero]
    exact Prod.ext rfl (Nat.mul_one den)
  have hdiv : num / den = n := by rw [hnum, Nat.mul_div_cancel _ hden]
  have hall : neighbours negative num den (j + 1) (j + 1) =
      [⟨negative, n, 0⟩, ⟨negative, n + 1, 0⟩] := by
    unfold neighbours
    simp only [hscale, hdiv, roundQuotient_of_eq_mul hden hnum, if_true]
    simp
  obtain ⟨hnegative, hplaces, hwhole⟩ :=
    trimFrom_whole n.log2 (d := ⟨negative, n, 0⟩) le_rfl
  have hvalue : (⟨negative, n, 0⟩ : Decimal).whole = n := by simp [Decimal.whole]
  rw [hvalue] at hwhole
  have hread : (Decimal.trim ⟨negative, n, 0⟩).toDouble = nearest negative n 1 := by
    have h := toDouble_whole hplaces (by rw [hwhole]; exact lt_trans hn (by decide))
    rwa [hwhole, hnegative] at h
  have hfound : same (Decimal.trim ⟨negative, n, 0⟩).toDouble (nearest negative n 1) = true := by
    rw [hread, same]
    exact beq_self_eq_true _
  rw [ht, List.range_add, List.flatMap_append, List.find?_append]
  cases hfind : ((List.range j).flatMap fun i =>
      (neighbours negative num den (j + 1) (i + 1)).map Decimal.trim).find? fun d =>
        same d.toDouble (nearest negative n 1) with
  | some c =>
    have hc := List.find?_some hfind
    obtain ⟨i, hi, hmem⟩ := List.mem_flatMap.1 (List.mem_of_find?_eq_some hfind)
    obtain ⟨d, hd, rfl⟩ := List.mem_map.1 hmem
    have hij : i < j := List.mem_range.1 hi
    exact ⟨_, rfl, whole_of_candidate hden hnum hn hexact hhigh (Nat.succ_pos i)
      (by push_cast; omega) hd (hsame hc)⟩
  | none =>
    refine ⟨_, ?_, hnegative, hplaces, hwhole⟩
    rw [Option.none_or, List.range_succ_eq_map, List.map_cons, List.flatMap_cons, Nat.add_zero,
      hall, List.map_cons, List.cons_append, List.find?_cons, hfound]
    rfl

end

/-- **The shortest numeral of a whole number below `10 ^ 16` is the number itself**, but for
    zeros at its end. -/
theorem shortest_whole (negative : Bool) (hexact : IsExact n) (hpos : 0 < n) (hn : n < 10 ^ 16) :
    ∃ d, shortest (nearest negative n 1) = some d ∧ d.negative = negative ∧
      0 ≤ d.exponent ∧ d.whole = n := by
  obtain ⟨m, e, hparts, hnum⟩ := nearest_parts negative hexact
  obtain ⟨hden, hratio⟩ := ratio_spec m e
  obtain ⟨hlow, hhigh⟩ := decimalPoint_whole hden hnum hpos hn
  obtain ⟨d, hfind, hd⟩ := find_whole hden hnum hn hexact negative hlow hhigh
  cases m with
  | zero =>
    rw [Nat.cast_zero, zero_mul, div_eq_zero_iff] at hratio
    have hnum' : 0 < (ratio 0 e).1 := hnum ▸ Nat.mul_pos hpos hden
    rcases hratio with h | h
    · exact absurd (by exact_mod_cast h) hnum'.ne'
    · exact absurd (by exact_mod_cast h) hden.ne'
  | succ m =>
    refine ⟨d, ?_, hd⟩
    unfold shortest
    rw [hparts]
    exact congrArg (fun c => some (c.getD (exactDecimal negative (m + 1) e))) hfind

/-! ## Numerals laid out -/

/-- Tens are written by zeros at the end. -/
theorem digitsOf_mul_pow (hn : n ≠ 0) (k : ℕ) : digitsOf (n * 10 ^ k) = digitsOf n ++ zeros k := by
  induction k with
  | zero => simp [zeros]
  | succ k ih =>
    have hpos : 0 < n * 10 ^ k := Nat.mul_pos (Nat.pos_of_ne_zero hn) (Nat.pow_pos (by decide))
    have hstep := Nat.toDigits_append_toDigits (b := 10) (d := 0) (by decide) hpos (by decide)
    have hten : 10 * (n * 10 ^ k) + 0 = n * 10 ^ (k + 1) := by ring
    rw [hten] at hstep
    rw [digitsOf, ← hstep]
    change digitsOf (n * 10 ^ k) ++ ['0'] = _
    rw [ih, List.append_assoc, zeros, zeros, List.replicate_succ']

theorem plain_whole {d : Decimal} (he : 0 ≤ d.exponent) (hd : d.whole ≠ 0) :
    d.plain = withSign d.negative (digitsOf d.whole) := by
  have hdigits : d.digits ≠ 0 := by
    intro h
    rw [Decimal.whole, h, zero_mul] at hd
    exact hd rfl
  have hlength : 0 < (digitsOf d.digits).length := Nat.length_toDigits_pos
  have hzeros : (((digitsOf d.digits).length : ℤ) + d.exponent).toNat -
      (digitsOf d.digits).length = d.exponent.toNat := by omega
  rw [Decimal.plain, if_neg hdigits, placePoint, if_neg (by omega), if_pos (by omega), hzeros,
    Decimal.whole, digitsOf_mul_pow hdigits]

/-- Where no point is put, the digits end in front of its place. -/
theorem point_of_not_mem_placePoint {ds : List Char} {point : ℤ} (h : '.' ∉ placePoint ds point) :
    (ds.length : ℤ) ≤ point := by
  unfold placePoint at h
  split_ifs at h with h₁ h₂
  · simp at h
  · omega
  · simp at h

/-- The letter before an exponent is none of the characters of a plain numeral. -/
theorem Spelled.exponent_not_mem {whole fraction cs : List Char} (h : Spelled whole fraction cs)
    (negative : Bool) : 'e' ∉ withSign negative cs := fun hmem =>
  absurd (h.isLow negative _ hmem).2 (by decide)

theorem significand?_spelled {whole fraction rest : List Char} (hne : whole ≠ [])
    (hwhole : Digits whole) (hfraction : Digits fraction)
    (hrest : ∀ c ∈ rest.head?, isDigit c = false ∧ c ≠ '.') :
    significand? (spelled whole fraction ++ rest) = some (whole, fraction, rest) := by
  have hne' : whole.isEmpty = false := by simpa using hne
  have hstop : ∀ c ∈ rest.head?, isDigit c = false := fun c hc => (hrest c hc).1
  unfold spelled significand?
  split_ifs with hempty
  · obtain ⟨ht, hd⟩ := takeWhile_append_stop hwhole.isDigit rest hstop
    rw [ht, hd]
    cases rest with
    | nil => simp [hne', hempty]
    | cons c rest =>
      have hpoint : c ≠ '.' := (hrest c rfl).2
      simp [hne', hempty, hpoint]
  · obtain ⟨ht, hd⟩ := takeWhile_append_stop hwhole.isDigit ('.' :: fraction ++ rest)
      (by simp [isDigit_point])
    obtain ⟨ht', hd'⟩ := takeWhile_append_stop hfraction.isDigit rest hstop
    rw [List.append_assoc, ht, hd]
    simp [ht', hd', hne']

theorem exponentPart?_exponentMark (layout : Decimal.Layout) (e : ℤ) :
    exponentPart? (Decimal.exponentMark layout e) = some e := by
  unfold Decimal.exponentMark
  dsimp only
  generalize hds : zeros (layout.exponentDigits - (digitsOf e.natAbs).length) ++
    digitsOf e.natAbs = ds
  have hall : ds.all isDigit = true :=
    hds ▸ List.all_eq_true.2 ((digits_zeros _).append (digits_digitsOf _)).isDigit
  have hne : ds.isEmpty = false :=
    hds ▸ List.isEmpty_eq_false_iff.2 (List.append_ne_nil_of_right_ne_nil _ Nat.toDigits_ne_nil)
  have hvalue : digitsValue ds = e.natAbs := by
    rw [← hds, digitsValue_zeros_append, digitsValue_digitsOf]
  have hread : ∀ negative, (if (('e' = 'e' || 'e' = 'E') && !ds.isEmpty && ds.all isDigit) = true
      then some (signed negative (digitsValue ds)) else none) =
        some (signed negative e.natAbs) := by
    intro negative
    rw [hne, hall, hvalue]
    rfl
  split_ifs with he
  · refine (hread true).trans (congrArg some ?_)
    simp only [signed, if_true]
    omega
  · refine (hread false).trans (congrArg some ?_)
    simp only [signed, Bool.false_eq_true, if_false]
    omega

/-- A numeral with an exponent is read as the numeral that it was written from. -/
theorem numeral?_exponential {d : Decimal} {c : Char} {cs : List Char} {layout : Decimal.Layout}
    (hds : digitsOf d.digits = c :: cs) :
    numeral? (withSign d.negative (spelled [c] cs ++
      Decimal.exponentMark layout (cs.length + d.exponent))) = some d := by
  have hdigits : Digits (c :: cs) := hds ▸ digits_digitsOf d.digits
  have hc : c.isDigit = true := hdigits c (by simp)
  have hcs : Digits cs := fun c hc => hdigits c (by simp [hc])
  have hvalue : digitsValue (c :: cs) = d.digits := hds ▸ digitsValue_digitsOf d.digits
  have hhead : ∃ c' rest, spelled [c] cs ++ Decimal.exponentMark layout (cs.length + d.exponent) =
      c' :: rest ∧ c'.isDigit = true := by
    unfold spelled
    split_ifs
    · exact ⟨c, _, rfl, hc⟩
    · exact ⟨c, _, rfl, hc⟩
  have hmark : ∀ c ∈ (Decimal.exponentMark layout (cs.length + d.exponent)).head?,
      isDigit c = false ∧ c ≠ '.' := by
    rintro c ⟨⟩
    exact ⟨isDigit_eq_false (.inr (by decide)) (by decide), by decide⟩
  unfold Number.numeral?
  rw [takeSign_withSign hhead]
  dsimp only
  rw [significand?_spelled (by simp) (by simpa [Digits] using hc) hcs hmark]
  dsimp only [Option.bind_eq_bind, Option.bind_some]
  rw [exponentPart?_exponentMark, List.singleton_append, hvalue]
  simp

/-! ## Texts with an exponent -/

/-- The text of a number with its exponent, if it has one, spelled out. -/
def spelledOut (text : String) : String :=
  if 'e' ∈ text.toList then
    match numeral? text.toList with
    | some d => String.ofList d.plain
    | none => text
  else text

section
variable {d : Decimal} (hd : d.digits ≠ 0)
include hd

/-- The digits with a point put in. -/
theorem plain_eq : d.plain = withSign d.negative
    (placePoint (digitsOf d.digits) ((digitsOf d.digits).length + d.exponent)) := by
  rw [Decimal.plain, if_neg hd]

/-- A numeral of at most sixteen digits in front of the point, and not too small, is put by
    position in its canonical form; without a point in it this gets one. -/
theorem canonical_positional (hlow : -4 < (digitsOf d.digits).length + d.exponent)
    (hhigh : (digitsOf d.digits).length + d.exponent ≤ 16)
    (hpoint : '.' ∈ placePoint (digitsOf d.digits) ((digitsOf d.digits).length + d.exponent)) :
    d.canonical = d.plain := by
  rw [plain_eq hd, Decimal.canonical, Decimal.canonicalWith]
  dsimp only
  rw [if_neg hd, if_pos ⟨hlow, hhigh⟩, if_pos (by simpa using hpoint)]

/-- Any other is written with an exponent. -/
theorem canonical_exponential {c : Char} {cs : List Char} (hds : digitsOf d.digits = c :: cs)
    (hrange : ¬ (-4 < (cs.length : ℤ) + 1 + d.exponent ∧ (cs.length : ℤ) + 1 + d.exponent ≤ 16)) :
    d.canonical = withSign d.negative (spelled [c] cs ++
      Decimal.exponentMark Decimal.canonicalLayout (cs.length + d.exponent)) := by
  have hhead : (c :: cs).take 1 ++ (if (c :: cs).length = 1 then [] else '.' :: (c :: cs).drop 1) =
      spelled [c] cs := by
    cases cs <;> simp [spelled]
  have hexponent : ((c :: cs).length : ℤ) + d.exponent - 1 = cs.length + d.exponent := by
    simp only [List.length_cons]
    push_cast
    ring
  rw [Decimal.canonical, Decimal.canonicalWith]
  dsimp only
  rw [if_neg hd, hds, if_neg, hhead, hexponent]
  simpa [Decimal.canonicalLayout] using hrange

/-- **The canonical form of a numeral, its exponent spelled out, is its plain form**, but for
    the `.0` of whole numbers with at most sixteen digits. -/
theorem spelledOut_canonical (hwhole : 0 ≤ d.exponent → 10 ^ 16 ≤ d.whole) :
    spelledOut (String.ofList d.canonical) = String.ofList d.plain := by
  obtain ⟨c, cs, hds⟩ : ∃ c cs, digitsOf d.digits = c :: cs :=
    List.exists_cons_of_ne_nil Nat.toDigits_ne_nil
  have hlength : (digitsOf d.digits).length = cs.length + 1 := by rw [hds]; rfl
  by_cases hrange : -4 < (cs.length : ℤ) + 1 + d.exponent ∧ (cs.length : ℤ) + 1 + d.exponent ≤ 16
  · obtain ⟨whole, fraction, hspelled, -, -⟩ := placePoint_spelled (digits_digitsOf d.digits)
      Nat.toDigits_ne_nil ((digitsOf d.digits).length + d.exponent)
    have hpoint : '.' ∈ placePoint (digitsOf d.digits)
        ((digitsOf d.digits).length + d.exponent) := by
      -- else it is a whole number of at most sixteen digits
      by_contra hnone
      have hends := point_of_not_mem_placePoint hnone
      have he : 0 ≤ d.exponent := by omega
      have hdigits : d.digits < 10 ^ (digitsOf d.digits).length :=
        (Nat.length_toDigits_le_iff (by decide) Nat.length_toDigits_pos).1 le_rfl
      have hlt : d.whole < 10 ^ 16 := by
        calc d.whole < 10 ^ (digitsOf d.digits).length * 10 ^ d.exponent.toNat :=
              Nat.mul_lt_mul_of_pos_right hdigits (Nat.pow_pos (by decide))
          _ = 10 ^ ((digitsOf d.digits).length + d.exponent.toNat) := (pow_add _ _ _).symm
          _ ≤ 10 ^ 16 := Nat.pow_le_pow_right (by decide) (by omega)
      exact absurd (hwhole he) (not_le.2 hlt)
    have hcanonical := canonical_positional hd (by omega) (by omega) hpoint
    have hmark : 'e' ∉ (String.ofList d.plain).toList := by
      rw [String.toList_ofList, plain_eq hd]
      exact hspelled.exponent_not_mem _
    rw [hcanonical, spelledOut, if_neg hmark]
  · have hcanonical := canonical_exponential hd hds hrange
    have hmark : 'e' ∈ (String.ofList d.canonical).toList := by
      rw [String.toList_ofList, hcanonical, Decimal.exponentMark]
      unfold withSign
      split_ifs <;> simp
    rw [spelledOut, if_pos hmark, String.toList_ofList, hcanonical, numeral?_exponential hds]

end

end Number

/-! ## The text of a number by cases -/

/-- The text of a number by what it is: a whole number below `10 ^ 16` as an integer, any
    other finite one as its canonical text with the exponent spelled out. -/
def Value.printed (x : Float) : String :=
  match trunc? x with
  | some i => if isWhole x ∧ i.natAbs < 10 ^ 16 then toString i else spelledOut (canonicalText x)
  | none => canonicalText x

theorem toString_signed {n : ℕ} (hn : n ≠ 0) (negative : Bool) :
    toString (signed negative n) = String.ofList (withSign negative (digitsOf n)) := by
  obtain ⟨n, rfl⟩ := Nat.exists_eq_succ_of_ne_zero hn
  have hnat : toString (n + 1 : ℕ) = String.ofList (digitsOf (n + 1)) := rfl
  cases negative with
  | false => exact hnat
  | true =>
    have hint : toString (Int.negSucc n) = "-" ++ toString (n + 1 : ℕ) := rfl
    change toString (Int.negSucc n) = _
    rw [hint, hnat, ← String.toList_inj]
    simp [withSign]

theorem Number.eq_zero_of_beq {x : Float} (h : (x == 0.0) = true) : x = 0.0 ∨ x = -0.0 := by
  obtain ⟨s, hs⟩ := beq_zero_iff.1 h
  cases s with
  | positive => exact .inl (eq_of_unpacked_eq hs)
  | negative => exact .inr (eq_of_unpacked_eq (hs.trans (by rfl)))

/-- **The text of a number is printed in one of three ways**, the boundary between them at
    `10 ^ 16` and where the canonical text begins to have an exponent. -/
theorem Value.numberText_eq_printed {x : Float} (hfinite : Number.isFinite x = true) :
    numberText x = printed x := by
  by_cases hzero : (x == 0.0) = true
  · rcases eq_zero_of_beq hzero with rfl | rfl <;> decide +kernel
  obtain ⟨m, e, hparts, -, -⟩ := parts_of_isFinite hfinite
  obtain ⟨i, hi⟩ : ∃ i, trunc? x = some i := by
    rw [trunc?, hparts]
    exact ⟨_, rfl⟩
  obtain ⟨d, hd, hx⟩ := toDouble_shortest hfinite
  have hnegative : isNegative x = d.negative := by rw [← hx, isNegative_toDouble]
  have hnonzero : ∀ negative, x ≠ zero negative := by
    have hbeq : ∀ negative, (zero negative == 0.0) = true := by decide +kernel
    rintro negative rfl
    exact hzero (hbeq negative)
  have hplain : numberText x = String.ofList d.plain := by
    rw [numberText, if_neg hzero, plainText, hd]
  have hcanonical : canonicalText x = String.ofList d.canonical := by rw [canonicalText, hd]
  rw [printed, hi, hplain, hcanonical]
  dsimp only
  split_ifs with hwhole
  · -- the shortest numeral is the number itself
    obtain ⟨hexact, hnearest, hsigned⟩ :=
      exists_nearest_of_whole hfinite hwhole.1 hi hwhole.2
    have hn : i.natAbs ≠ 0 := by
      intro h
      rw [h, nearest, if_pos rfl] at hnearest
      exact hnonzero _ hnearest
    obtain ⟨d', hd', hsign, hplaces, hvalue⟩ := shortest_whole (isNegative x)
      hexact (Nat.pos_of_ne_zero hn) hwhole.2
    rw [← hnearest, hd] at hd'
    obtain rfl : d = d' := Option.some.inj hd'
    rw [plain_whole hplaces (by rwa [hvalue]), hvalue, hsign, hsigned, natAbs_signed,
      toString_signed hn]
  · have hdigits : d.digits ≠ 0 := by
      intro h
      rw [Decimal.toDouble, if_pos h] at hx
      exact hnonzero _ hx.symm
    refine (spelledOut_canonical hdigits fun hplaces => ?_).symm
    by_contra hlt
    -- a whole number, below `10 ^ 16` but for one that is rounded up to it
    have hlt' : d.whole < 10 ^ 16 := not_le.1 hlt
    obtain ⟨n, hn, hexact, hround⟩ := exists_exact hlt'
    have hnearest : x = nearest d.negative n 1 := by
      rw [← hround, ← toDouble_whole hplaces (lt_trans hlt' (by decide)), hx]
    rcases hn.lt_or_eq with hn | rfl
    · obtain ⟨hw, ht⟩ := whole_of_nearest d.negative hexact
      rw [← hnearest] at hw ht
      rw [ht] at hi
      cases hi
      exact hwhole ⟨hw, by rwa [natAbs_signed]⟩
    · have hten : ∀ negative, shortest (nearest negative (10 ^ 16) 1) =
          some ⟨negative, 1, 16⟩ := by decide +kernel
      rw [hnearest, hten] at hd
      rw [← Option.some.inj hd] at hlt'
      simp [Decimal.whole] at hlt'

/-- **The text of a number reads back as the number.** For a finite number it is digits,
    with at most one point and that between digits, behind a minus where the number is
    less than zero. As a text that stands for a number and as an argument it gives the
    number again, zero without its sign; and that of a positive number is one token, which
    carries the number. It is printed in one of three ways: as an integer, as its canonical
    text, or as that with the exponent spelled out. -/
theorem Value.toText_read_back {x : Float} (hfinite : Number.isFinite x = true) :
    (∃ whole fraction cs, Spelled whole fraction cs ∧
      (number x).toText.toList = withSign (isNegative (unsignedZero x)) cs) ∧
    (text (number x).toText).toNumber = .ok (some (unsignedZero x)) ∧
    ofArgument (number x).toText = .ok (number (unsignedZero x)) ∧
    (unsignedZero x == x) = true ∧
    (0.0 < x → tokenize (number x).toText =
      .ok [.standsFirst (.number x) (number x).toText,
        .finishAt (number x).toText.length (behind (number x).toText)]) ∧
    (number x).toText = printed x := by
  obtain ⟨whole, fraction, cs, hspelled, htext, -⟩ := numberText_spelled hfinite
  have hlow : ∀ c ∈ (numberText x).toList, IsLow c := htext ▸ hspelled.isLow _
  have hnumber : (text (numberText x)).toNumber = .ok (some (unsignedZero x)) := by
    rw [toNumber, numericText_numberText hfinite]
  refine ⟨⟨whole, fraction, cs, hspelled, htext⟩, hnumber, ofArgument_of_isLow hlow hnumber,
    unsignedZero_beq (isNaN_eq_false hfinite), fun hpos => ?_, numberText_eq_printed hfinite⟩
  have hnegative := isNegative_of_pos hpos
  have hzero : ¬ (x == 0.0) = true := by
    rw [beq_iff_order?, order?_swap, lt_iff.1 hpos]
    decide
  have hplain : numberText x = plainText x := if_neg hzero
  rw [toText, hplain]
  exact tokenize_word (plainText_unbroken hfinite hnegative)
    (.plainText hfinite hnegative (by simp))

/-- The first whole number whose canonical text has an exponent; this one has none. -/
theorem Value.tenQuadrillion_read_back :
    Number.isFinite 1e16 = true ∧ (0.0 : Float) < 1e16 ∧
      tokenize "10000000000000000" = .ok [.standsFirst (.number 1e16) "10000000000000000",
        .finishAt 17 (behind "10000000000000000")] := by
  have hfinite : Number.isFinite 1e16 = true := by decide +kernel
  have hpos : (0.0 : Float) < 1e16 := by decide +kernel
  have htext : (number 1e16).toText = "10000000000000000" := by decide +kernel
  obtain ⟨-, -, -, -, htoken, -⟩ := toText_read_back hfinite
  refine ⟨hfinite, hpos, ?_⟩
  have hread := htoken hpos
  rwa [htext] at hread

end Rulebook

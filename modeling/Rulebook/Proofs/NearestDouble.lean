/-
  The double nearest to a ratio.

  * `IsClosest ties v m`: the natural `m` is closest to `v`, a tie going as `ties` says;
    `isClosest_roundQuotient`: rounding a ratio of naturals gives this one.
  * `magnitudeOf bits`: the exact value of the magnitude bits of a double, which are counted
    through all doubles in order; infinity stands at `2 ^ 1024`, the first power beyond them.
  * `IsNearest v x`: the double `x` is nearest to `v`, a tie going to the even significand.
  * `Decimal.isNearest_toDouble`: the double of a numeral is nearest to it.
-/
import Rulebook.Proofs.Nearest

namespace Rulebook.Number

/-! ## The closest natural -/

/-- Which of two equally near naturals is taken. -/
def Ties.Prefers : Ties → ℕ → ℕ → Prop
  | .toEven, m, _ => m % 2 = 0
  | .awayFromZero, m, j => j < m

/-- No natural is closer, and any that is as close is not preferred. -/
def IsClosest (ties : Ties) (v : ℚ) (m : ℕ) : Prop :=
  ∀ j : ℕ, j ≠ m → |v - m| < |v - j| ∨ |v - m| = |v - j| ∧ ties.Prefers m j

section
variable {ties : Ties} {v : ℚ} {m n : ℕ}

/-- A natural at most a half away is closest, unless it is a half away and the other one
    there is preferred. -/
theorem isClosest_of_half (hhalf : |v - m| ≤ 1 / 2)
    (htie : ∀ j : ℕ, j ≠ m → |v - m| = 1 / 2 → |v - j| = 1 / 2 → ties.Prefers m j) :
    IsClosest ties v m := by
  intro j hj
  have hone : (1 : ℚ) ≤ |(j : ℚ) - m| := by
    have hint : (1 : ℤ) ≤ |(j : ℤ) - m| := Int.one_le_abs (by omega)
    exact_mod_cast hint
  have htriangle : |(j : ℚ) - m| ≤ |v - m| + |v - j| := by
    calc |(j : ℚ) - m| = |(v - m) - (v - j)| := by congr 1; ring
      _ ≤ |v - m| + |v - j| := abs_sub _ _
  have hle : |v - m| ≤ |v - j| := by linarith
  rcases hle.lt_or_eq with hlt | heq
  · exact .inl hlt
  · exact .inr ⟨heq, htie j hj (by linarith) (by linarith)⟩

theorem IsClosest.le (h : IsClosest ties v m) (hv : v ≤ n) : m ≤ n := by
  by_contra hlt
  have hlt' : (n : ℚ) < m := by exact_mod_cast not_le.1 hlt
  have hfar : |v - n| < |v - m| := by
    rw [abs_of_nonpos (by linarith), abs_of_nonpos (by linarith)]
    linarith
  rcases h n (by omega) with hcloser | ⟨heq, -⟩ <;> linarith

theorem IsClosest.ge (h : IsClosest ties v m) (hv : n ≤ v) : n ≤ m := by
  by_contra hlt
  have hlt' : (m : ℚ) < n := by exact_mod_cast not_le.1 hlt
  have hfar : |v - n| < |v - m| := by
    rw [abs_of_nonneg (by linarith), abs_of_nonneg (by linarith)]
    linarith
  rcases h n (by omega) with hcloser | ⟨heq, -⟩ <;> linarith

theorem IsClosest.abs_le (h : IsClosest ties v m) (j : ℕ) : |v - m| ≤ |v - j| := by
  by_cases hj : j = m
  · rw [hj]
  · exact (h j hj).elim (·.le) (·.1.le)

end

/-- Distances are those in units, a unit long each. -/
theorem abs_sub_mul {unit : ℚ} (hunit : 0 < unit) (v a : ℚ) :
    |v - a * unit| = |v / unit - a| * unit := by
  have hfactor : v - a * unit = (v / unit - a) * unit := by field_simp
  rw [hfactor, abs_mul, abs_of_pos hunit]

section
variable {q : ℕ} {f : ℚ}

theorem abs_add_sub_self (hf : 0 ≤ f) : |(q : ℚ) + f - q| = f := by
  rw [add_sub_cancel_left, abs_of_nonneg hf]

theorem abs_add_sub_succ (hf : f ≤ 1) : |(q : ℚ) + f - (q + 1 : ℕ)| = 1 - f := by
  rw [Nat.cast_add_one, add_sub_add_left_eq_sub, abs_sub_comm, abs_of_nonneg (by linarith)]

theorem isClosest_below (ties : Ties) (hf : 0 ≤ f) (hlt : f < 1 / 2) :
    IsClosest ties (q + f) q := by
  have hbelow := abs_add_sub_self (q := q) hf
  exact isClosest_of_half (by linarith) fun _ _ heq => by linarith

theorem isClosest_above (ties : Ties) (hgt : 1 / 2 < f) (hf : f ≤ 1) :
    IsClosest ties (q + f) (q + 1) := by
  have habove := abs_add_sub_succ (q := q) hf
  exact isClosest_of_half (by linarith) fun _ _ heq => by linarith

/-- Of the two that are a half away, one is even. -/
theorem isClosest_toEven (q : ℕ) : IsClosest .toEven (q + 1 / 2) (q + q % 2) := by
  have hbelow := abs_add_sub_self (q := q) (f := 1 / 2) (by norm_num)
  have habove := abs_add_sub_succ (q := q) (f := 1 / 2) (by norm_num)
  refine isClosest_of_half ?_ fun _ _ _ _ => ?_
  · rcases Nat.mod_two_eq_zero_or_one q with heven | hodd
    · rw [heven, Nat.add_zero]
      exact hbelow.le
    · rw [hodd, habove]
      norm_num
  · change (q + q % 2) % 2 = 0
    omega

/-- Nothing beyond the larger one of the two is a half away. -/
theorem isClosest_awayFromZero (q : ℕ) : IsClosest .awayFromZero (q + 1 / 2) (q + 1) := by
  have habove := abs_add_sub_succ (q := q) (f := 1 / 2) (by norm_num)
  refine isClosest_of_half (by rw [habove]; norm_num) fun j hj _ hhalf => ?_
  by_contra hlt
  have hfar : (q : ℚ) + 2 ≤ j := by
    have hbeyond : ¬ j < q + 1 := hlt
    exact_mod_cast (by omega : q + 2 ≤ j)
  rw [abs_of_nonpos (by linarith)] at hhalf
  linarith

end

/-- **Rounding a ratio gives the closest natural.** -/
theorem isClosest_roundQuotient (ties : Ties) (num : ℕ) {den : ℕ} (hden : 0 < den) :
    IsClosest ties ((num : ℚ) / den) (roundQuotient ties num den) := by
  have hden' : (0 : ℚ) < den := by exact_mod_cast hden
  have hsplit : (num : ℚ) / den = (num / den : ℕ) + ((num % den : ℕ) : ℚ) / den := by
    have hnum : ((num / den * den + num % den : ℕ) : ℚ) = num := by rw [Nat.div_add_mod']
    push_cast at hnum
    field_simp
    linarith
  have hrest : ((num % den : ℕ) : ℚ) / den ≤ 1 := by
    rw [div_le_one hden']
    exact_mod_cast (Nat.mod_lt num hden).le
  unfold roundQuotient
  dsimp only
  rw [hsplit]
  generalize num / den = q
  generalize num % den = r at hrest
  split
  · next h =>
    have h' : (2 : ℚ) * r < den := by exact_mod_cast Nat.compare_eq_lt.1 h
    refine isClosest_below ties (by positivity) ?_
    rw [div_lt_iff₀ hden']
    linarith
  · next h =>
    have h' : (den : ℚ) < 2 * r := by exact_mod_cast Nat.compare_eq_gt.1 h
    refine isClosest_above ties ?_ hrest
    rw [lt_div_iff₀ hden']
    linarith
  · next h =>
    have heq : (r : ℚ) / den = 1 / 2 := by
      have h' : (2 : ℚ) * r = den := by exact_mod_cast Nat.compare_eq_eq.1 h
      rw [div_eq_iff hden'.ne']
      linarith
    rw [heq]
    cases ties with
    | toEven => exact isClosest_toEven q
    | awayFromZero => exact isClosest_awayFromZero q

/-! ## The doubles in order -/

/-- The exact value of the magnitude bits of a double. -/
def magnitudeOf (bits : ℕ) : ℚ :=
  if bits / unitBit = 0 then (bits % unitBit : ℕ) * 2 ^ leastExponent
  else (unitBit + bits % unitBit : ℕ) * 2 ^ (leastExponent + ((bits / unitBit : ℕ) - 1 : ℤ))

/-- An exponent with which a value has all bits of a significand, or the least one. -/
structure IsScale (v : ℚ) (e : ℤ) : Prop where
  least : leastExponent ≤ e
  full : leastExponent < e → 2 ^ 52 * 2 ^ e ≤ v
  le : v ≤ 2 ^ 53 * 2 ^ e

theorem magnitudeOf_below {fraction : ℕ} (h : fraction < unitBit) :
    magnitudeOf fraction = fraction * 2 ^ leastExponent := by
  rw [magnitudeOf, if_pos (Nat.div_eq_of_lt h), Nat.mod_eq_of_lt h]

theorem magnitudeOf_field {field fraction : ℕ} (h : fraction < unitBit) :
    magnitudeOf ((field + 1) * unitBit + fraction) =
      (unitBit + fraction : ℕ) * 2 ^ (leastExponent + field) := by
  obtain ⟨hdiv, hmod⟩ : ((field + 1) * unitBit + fraction) / unitBit = field + 1 ∧
      ((field + 1) * unitBit + fraction) % unitBit = fraction :=
    (Nat.div_mod_unique (by rw [unitBit_eq]; positivity)).2 ⟨by ring, h⟩
  rw [magnitudeOf, hdiv, hmod, if_neg (Nat.succ_ne_zero field)]
  push_cast
  congr 3
  ring

/-- The bits of a significand count it on from the first double of its exponent, also where
    it is carried to the next one. -/
theorem magnitudeOf_normalBits {m : ℕ} {e : ℤ} (hleast : leastExponent ≤ e)
    (hfull : leastExponent < e → 2 ^ 52 ≤ m) (hm : m ≤ 2 ^ 53) :
    magnitudeOf (normalBits m e) = m * 2 ^ e := by
  obtain ⟨k, rfl⟩ : ∃ k : ℕ, e = leastExponent + k := ⟨(e - leastExponent).toNat, by omega⟩
  have hbits : normalBits m (leastExponent + k) = k * unitBit + m := by
    rw [normalBits, add_sub_cancel_left, Int.toNat_natCast]
  have hu := unitBit_eq
  rw [hbits]
  rcases Nat.lt_or_ge m (2 ^ 52) with hlow | hhigh
  · obtain rfl : k = 0 := by
      by_contra hk
      exact absurd (hfull (by omega)) (not_le.2 hlow)
    rw [zero_mul, zero_add, magnitudeOf_below (by rwa [hu]), Nat.cast_zero, add_zero]
  · obtain ⟨r, rfl⟩ := Nat.exists_eq_add_of_le hhigh
    rcases Nat.lt_or_ge r (2 ^ 52) with hlt | hge
    · have hone : k * unitBit + (2 ^ 52 + r) = (k + 1) * unitBit + r := by rw [hu]; ring
      rw [hone, magnitudeOf_field (by rwa [hu]), hu]
    · obtain rfl : r = 2 ^ 52 := by omega
      have htwo : k * unitBit + (2 ^ 52 + 2 ^ 52) = (k + 1 + 1) * unitBit + 0 := by rw [hu]; ring
      have hexponent : leastExponent + ((k + 1 : ℕ) : ℤ) = leastExponent + k + 1 := by
        push_cast
        ring
      rw [htwo, magnitudeOf_field (by rw [hu]; positivity), hu, hexponent,
        zpow_add_one₀ two_ne_zero]
      push_cast
      ring

/-- All magnitude bits are those of a significand and an exponent. -/
theorem exists_normalBits (bits : ℕ) :
    ∃ m e, bits = normalBits m e ∧ m < 2 ^ 53 ∧ leastExponent ≤ e ∧
      (leastExponent < e → 2 ^ 52 ≤ m) := by
  have hu := unitBit_eq
  have hmod : bits % unitBit < unitBit := Nat.mod_lt _ (by rw [hu]; positivity)
  have hsplit : bits = bits / unitBit * unitBit + bits % unitBit := (Nat.div_add_mod' _ _).symm
  rcases Nat.eq_zero_or_pos (bits / unitBit) with hfield | hfield
  · refine ⟨bits % unitBit, leastExponent, ?_, by omega, le_rfl, fun h => absurd h (lt_irrefl _)⟩
    rw [hfield] at hsplit
    rw [normalBits, sub_self, Int.toNat_zero]
    exact hsplit
  · obtain ⟨k, hk⟩ := Nat.exists_eq_add_of_le' hfield
    refine ⟨unitBit + bits % unitBit, leastExponent + k, ?_, by omega, by omega, fun _ => by omega⟩
    rw [hk] at hsplit
    rw [normalBits, add_sub_cancel_left, Int.toNat_natCast]
    calc bits = (k + 1) * unitBit + bits % unitBit := hsplit
      _ = k * unitBit + (unitBit + bits % unitBit) := by ring

/-- From the first double of an exponent on, all are multiples of its power. -/
theorem magnitudeOf_cases (bits : ℕ) {e : ℤ} (hleast : leastExponent ≤ e) :
    (∃ j : ℕ, magnitudeOf bits = j * 2 ^ e) ∨
      leastExponent < e ∧ magnitudeOf bits < 2 ^ 52 * 2 ^ e := by
  obtain ⟨m, e', rfl, hm, hleast', hfull⟩ := exists_normalBits bits
  rw [magnitudeOf_normalBits hleast' hfull hm.le]
  rcases lt_or_ge e' e with hlt | hge
  · refine .inr ⟨by omega, ?_⟩
    have hm' : (m : ℚ) < 2 ^ 53 := by exact_mod_cast hm
    calc (m : ℚ) * 2 ^ e' < 2 ^ 53 * 2 ^ e' := by gcongr
      _ ≤ 2 ^ 53 * 2 ^ (e - 1) := by
        gcongr
        · norm_num
        · omega
      _ = 2 ^ 52 * 2 ^ e := by
        rw [zpow_sub_one₀ two_ne_zero]
        ring
  · obtain ⟨k, rfl⟩ : ∃ k : ℕ, e' = e + k := ⟨(e' - e).toNat, by omega⟩
    refine .inl ⟨m * 2 ^ k, ?_⟩
    rw [zpow_add₀ two_ne_zero, zpow_natCast]
    push_cast
    ring

/-- Infinity stands at the first power of two beyond the doubles. -/
theorem magnitudeOf_infinityBits : magnitudeOf infinityBits = 2 ^ 1024 := by
  have hbits : infinityBits = (2046 + 1) * unitBit + 0 := rfl
  have hexponent : leastExponent + (2046 : ℕ) = ((972 : ℕ) : ℤ) := rfl
  rw [hbits, magnitudeOf_field (by decide), hexponent, unitBit_eq, zpow_natCast, add_zero,
    Nat.cast_pow, Nat.cast_ofNat, ← pow_add]

theorem normalBits_le {m : ℕ} {e : ℤ} (hm : m ≤ 2 ^ 53) (he : e ≤ 971) :
    normalBits m e ≤ infinityBits := by
  simp only [normalBits, infinityBits, unitBit_eq, leastExponent]
  omega

theorem le_normalBits {m : ℕ} {e : ℤ} (hm : 2 ^ 52 ≤ m) (he : 971 < e) :
    infinityBits ≤ normalBits m e := by
  simp only [normalBits, infinityBits, unitBit_eq, leastExponent]
  omega

theorem magnitudeOf_le {bits : ℕ} (h : bits ≤ infinityBits) : magnitudeOf bits ≤ 2 ^ 1024 := by
  obtain ⟨m, e, rfl, hm, hleast, hfull⟩ := exists_normalBits bits
  rcases le_or_gt e 971 with he | he
  · rw [magnitudeOf_normalBits hleast hfull hm.le]
    have hm' : (m : ℚ) ≤ 2 ^ 53 := by exact_mod_cast hm.le
    calc (m : ℚ) * 2 ^ e ≤ 2 ^ 53 * 2 ^ (971 : ℤ) := by
          gcongr
          norm_num
      _ = 2 ^ 1024 := by rw [zpow_ofNat, ← pow_add]
  · have hbits := le_antisymm h (le_normalBits (hfull (by unfold leastExponent; omega)) he)
    rw [hbits, magnitudeOf_infinityBits]

/-! ## The nearest magnitude -/

/-- No magnitude up to infinity is nearer to a value, and if another is as near, the bits of
    this one are even. -/
def IsNearestBits (v : ℚ) (bits : ℕ) : Prop :=
  ∀ b ≤ infinityBits, |v - magnitudeOf bits| ≤ |v - magnitudeOf b| ∧
    (magnitudeOf b ≠ magnitudeOf bits → |v - magnitudeOf bits| = |v - magnitudeOf b| →
      bits % 2 = 0)

/-- What is not below the first power beyond the doubles goes to infinity. -/
theorem isNearestBits_infinityBits {v : ℚ} (h : 2 ^ 1024 ≤ v) : IsNearestBits v infinityBits := by
  intro b hb
  have hb' := magnitudeOf_le hb
  rw [magnitudeOf_infinityBits]
  generalize (2 : ℚ) ^ 1024 = top at h hb' ⊢
  rw [abs_of_nonneg (by linarith), abs_of_nonneg (by linarith)]
  exact ⟨by linarith, fun hne heq => absurd (by linarith) hne⟩

section
variable {v : ℚ} {m : ℕ} {e : ℤ} (hscale : IsScale v e) (hm : IsClosest .toEven (v / 2 ^ e) m)
include hscale hm

theorem IsScale.closest_le : m ≤ 2 ^ 53 := by
  refine hm.le ?_
  rw [div_le_iff₀ (by positivity)]
  exact_mod_cast hscale.le

theorem IsScale.le_closest (he : leastExponent < e) : 2 ^ 52 ≤ m := by
  refine hm.ge ?_
  rw [le_div_iff₀ (by positivity)]
  exact_mod_cast hscale.full he

/-- The closest multiple of the power is as near as any double. -/
theorem IsScale.nearest (bits : ℕ) : |v - m * 2 ^ e| ≤ |v - magnitudeOf bits| ∧
    (magnitudeOf bits ≠ m * 2 ^ e → |v - m * 2 ^ e| = |v - magnitudeOf bits| → m % 2 = 0) := by
  have hdist : ∀ a : ℚ, |v - a * 2 ^ e| = |v / 2 ^ e - a| * 2 ^ e := abs_sub_mul (by positivity) v
  obtain ⟨j, hj⟩ | ⟨he, hbelow⟩ := magnitudeOf_cases bits hscale.least
  · rw [hj, hdist, hdist]
    refine ⟨mul_le_mul_of_nonneg_right (hm.abs_le j) (by positivity), fun hne heq => ?_⟩
    have hjm : j ≠ m := by
      rintro rfl
      exact hne rfl
    rcases hm j hjm with hlt | ⟨-, heven⟩
    · exact absurd (mul_right_cancel₀ (by positivity) heq) hlt.ne
    · exact heven
  · -- the least double of the exponent lies between
    have hlow := hscale.full he
    have hnear : |v - m * 2 ^ e| ≤ v - 2 ^ 52 * 2 ^ e := by
      have hleast : |v - (2 ^ 52 : ℕ) * 2 ^ e| = v - 2 ^ 52 * 2 ^ e := by
        push_cast
        exact abs_of_nonneg (by linarith)
      rw [← hleast, hdist, hdist]
      exact mul_le_mul_of_nonneg_right (hm.abs_le _) (by positivity)
    have hfar : |v - magnitudeOf bits| = v - magnitudeOf bits := abs_of_nonneg (by linarith)
    exact ⟨by linarith, fun _ heq => by linarith⟩

theorem isNearestBits_of_isClosest : IsNearestBits v (min (normalBits m e) infinityBits) := by
  have hm' := hscale.closest_le hm
  rcases le_or_gt e 971 with he | he
  · intro b _
    rw [min_eq_left (normalBits_le hm' he),
      magnitudeOf_normalBits hscale.least (hscale.le_closest hm) hm']
    obtain ⟨hle, heven⟩ := hscale.nearest hm b
    refine ⟨hle, fun hne heq => ?_⟩
    have hparity := heven hne heq
    simp only [normalBits, unitBit_eq]
    omega
  · have hleast : leastExponent < e := lt_trans (by decide) he
    rw [min_eq_right (le_normalBits (hscale.le_closest hm hleast) he)]
    refine isNearestBits_infinityBits ?_
    calc (2 : ℚ) ^ 1024 = 2 ^ 52 * 2 ^ (972 : ℤ) := by rw [zpow_ofNat, ← pow_add]
      _ ≤ 2 ^ 52 * 2 ^ e := by
        gcongr
        · norm_num
        · omega
      _ ≤ v := hscale.full hleast

end

/-- The exponent chosen for a ratio is such a scale. -/
theorem isScale_binaryExponent {num den : ℕ} (hnum : num ≠ 0) (hden : 0 < den) :
    IsScale ((num : ℚ) / den) (binaryExponent num den) := by
  obtain ⟨hlow, hhigh⟩ := ratio_bounds hnum hden.ne'
  generalize hestimate : (num.log2 : ℤ) - den.log2 - 53 = estimate
  have hlow' : (2 : ℚ) ^ 52 * 2 ^ estimate < num / den := by
    have hexponent : (num.log2 : ℤ) - den.log2 - 1 = (52 : ℕ) + estimate := by omega
    rwa [hexponent, zpow_add₀ two_ne_zero, zpow_natCast] at hlow
  have hhigh' : (num : ℚ) / den < 2 ^ 53 * 2 ^ (estimate + 1) := by
    have hexponent : (num.log2 : ℤ) - den.log2 + 1 = (53 : ℕ) + (estimate + 1) := by omega
    rwa [hexponent, zpow_add₀ two_ne_zero, zpow_natCast] at hhigh
  unfold binaryExponent
  dsimp only
  rw [hestimate]
  generalize he : max estimate leastExponent = e
  have hleast : leastExponent ≤ e := he ▸ le_max_right _ _
  obtain ⟨hpos, hratio⟩ := scaleDown_spec num hden e
  have hfloor : ∀ n : ℕ, (scaleDown num den e).1 / (scaleDown num den e).2 < n ↔
      (num : ℚ) / den < n * 2 ^ e := by
    intro n
    rw [Nat.div_lt_iff_lt_mul hpos, ← div_lt_iff₀ (by positivity), ← hratio,
      div_lt_iff₀ (by exact_mod_cast hpos)]
    exact_mod_cast Iff.rfl
  have hdouble : 2 * unitBit = 2 ^ 53 := rfl
  rw [hdouble]
  split_ifs with h
  · refine ⟨hleast, fun hlt => ?_, ?_⟩
    · obtain rfl : estimate = e := by omega
      exact hlow'.le
    · exact_mod_cast ((hfloor _).1 h).le
  · have hge : (2 : ℚ) ^ 53 * 2 ^ e ≤ num / den := by
      exact_mod_cast not_lt.1 (mt (hfloor (2 ^ 53)).2 h)
    refine ⟨by omega, fun _ => ?_, ?_⟩
    · rw [zpow_add_one₀ two_ne_zero]
      linarith
    · calc (num : ℚ) / den ≤ 2 ^ 53 * 2 ^ (estimate + 1) := hhigh'.le
        _ ≤ 2 ^ 53 * 2 ^ (e + 1) := by
          gcongr
          · norm_num
          · omega

theorem magnitudeOf_zero : magnitudeOf 0 = 0 := by
  rw [magnitudeOf_below (by rw [unitBit_eq]; positivity), Nat.cast_zero, zero_mul]

theorem isNearestBits_zero : IsNearestBits 0 0 := by
  intro b _
  rw [magnitudeOf_zero, sub_zero, abs_zero]
  exact ⟨abs_nonneg _, fun _ _ => rfl⟩

/-- The magnitude of the double nearest to a ratio, which does not depend on the sign. -/
theorem nearest_bits (num : ℕ) {den : ℕ} (hden : 0 < den) :
    ∃ bits ≤ infinityBits, IsNearestBits ((num : ℚ) / den) bits ∧
      ∀ negative, nearest negative num den = ofMagnitude negative bits := by
  by_cases hnum : num = 0
  · refine ⟨0, Nat.zero_le _, ?_, fun negative => if_pos hnum⟩
    rw [hnum, Nat.cast_zero, zero_div]
    exact isNearestBits_zero
  · obtain ⟨hpos, hratio⟩ := scaleDown_spec num hden (binaryExponent num den)
    have hclosest := isClosest_roundQuotient .toEven
      (scaleDown num den (binaryExponent num den)).1 hpos
    rw [hratio] at hclosest
    exact ⟨_, min_le_right _ _, isNearestBits_of_isClosest (isScale_binaryExponent hnum hden)
      hclosest, fun negative => if_neg hnum⟩

/-! ## The magnitude of a numeral -/

theorem two_pow_le_ten_pow (k : ℕ) : (2 : ℚ) ^ (3 * k) ≤ 10 ^ k := by
  rw [pow_mul]
  exact pow_le_pow_left₀ (by norm_num) (by norm_num) k

/-- A numeral with a large exponent lies beyond the doubles. -/
theorem far_above {digits : ℕ} (hdigits : digits ≠ 0) {exponent : ℤ}
    (h : Decimal.farExponent < exponent) : (2 : ℚ) ^ 1024 ≤ digits * 10 ^ exponent := by
  have hone : (1 : ℚ) ≤ digits := by exact_mod_cast Nat.one_le_iff_ne_zero.2 hdigits
  obtain ⟨k, rfl⟩ : ∃ k : ℕ, exponent = k := ⟨exponent.toNat, by unfold Decimal.farExponent at h; omega⟩
  have hk : 1024 ≤ 3 * k := by
    unfold Decimal.farExponent at h
    omega
  calc (2 : ℚ) ^ 1024 ≤ 2 ^ (3 * k) := pow_le_pow_right₀ (by norm_num) hk
    _ ≤ 10 ^ k := two_pow_le_ten_pow k
    _ = 1 * 10 ^ (k : ℤ) := by rw [one_mul, zpow_natCast]
    _ ≤ digits * 10 ^ (k : ℤ) := by gcongr

/-- A numeral with a very small exponent lies below half the least double. -/
theorem far_below {digits : ℕ} {exponent : ℤ}
    (h : exponent < -(Decimal.farExponent + digits.log2)) :
    digits * 10 ^ exponent / 2 ^ leastExponent < (1 / 2 : ℚ) := by
  obtain ⟨k, hk⟩ : ∃ k : ℕ, -exponent = k := ⟨(-exponent).toNat, by
    unfold Decimal.farExponent at h
    omega⟩
  obtain rfl : exponent = -(k : ℤ) := by omega
  have hlt : (digits : ℚ) < 2 ^ (digits.log2 + 1) := by exact_mod_cast Nat.lt_log2_self
  have hsum : digits.log2 + 1 + 1074 + 1 ≤ 3 * k := by
    unfold Decimal.farExponent at h
    omega
  have hleast : (2 : ℚ) ^ leastExponent = (2 ^ 1074)⁻¹ := by
    rw [leastExponent, zpow_neg, zpow_ofNat]
  rw [zpow_neg, zpow_natCast, hleast, div_inv_eq_mul]
  calc (digits : ℚ) * (10 ^ k)⁻¹ * 2 ^ 1074
      < 2 ^ (digits.log2 + 1) * (10 ^ k)⁻¹ * 2 ^ 1074 := by gcongr
    _ ≤ 2 ^ (digits.log2 + 1) * (2 ^ (3 * k))⁻¹ * 2 ^ 1074 := by
      gcongr
      exact two_pow_le_ten_pow k
    _ = 2 ^ (digits.log2 + 1 + 1074) / 2 ^ (3 * k) := by
      rw [mul_right_comm, ← pow_add, div_eq_mul_inv]
    _ ≤ 2 ^ (digits.log2 + 1 + 1074) / 2 ^ (digits.log2 + 1 + 1074 + 1) := by
      gcongr
      norm_num
    _ = 1 / 2 := by
      rw [pow_succ _ (digits.log2 + 1 + 1074)]
      field_simp

/-- The magnitude of the double of a numeral, which does not depend on the sign. -/
theorem toDouble_bits (digits : ℕ) (exponent : ℤ) :
    ∃ bits ≤ infinityBits, IsNearestBits (digits * 10 ^ exponent) bits ∧
      ∀ negative, (⟨negative, digits, exponent⟩ : Decimal).toDouble = ofMagnitude negative bits := by
  unfold Decimal.toDouble
  dsimp only
  split_ifs with hdigits habove hbelow hexponent
  · refine ⟨0, Nat.zero_le _, ?_, fun _ => rfl⟩
    rw [hdigits, Nat.cast_zero, zero_mul]
    exact isNearestBits_zero
  · exact ⟨_, le_rfl, isNearestBits_infinityBits (far_above hdigits habove), fun _ => rfl⟩
  · have hhalf := far_below hbelow
    have hpos : (0 : ℚ) ≤ digits * 10 ^ exponent / 2 ^ leastExponent := by positivity
    have hscale : IsScale (digits * 10 ^ exponent) leastExponent := by
      refine ⟨le_rfl, fun h => absurd h (lt_irrefl _), ?_⟩
      rw [← div_le_iff₀ (by positivity)]
      linarith
    have habs : |digits * 10 ^ exponent / 2 ^ leastExponent - ((0 : ℕ) : ℚ)| < 1 / 2 := by
      rwa [Nat.cast_zero, sub_zero, abs_of_nonneg hpos]
    have hclosest : IsClosest .toEven (digits * 10 ^ exponent / 2 ^ leastExponent) 0 :=
      isClosest_of_half habs.le fun _ _ heq => absurd heq habs.ne
    have hbits : min (normalBits 0 leastExponent) infinityBits = 0 := by decide
    exact ⟨0, Nat.zero_le _, hbits ▸ isNearestBits_of_isClosest hscale hclosest, fun _ => rfl⟩
  · obtain ⟨k, rfl⟩ := Int.eq_ofNat_of_zero_le hexponent
    obtain ⟨bits, hbits, hnearest, heq⟩ := nearest_bits (digits * Nat.pow 10 k) one_pos
    refine ⟨bits, hbits, ?_, heq⟩
    convert hnearest using 1
    simp
  · obtain ⟨k, hk⟩ := Int.eq_ofNat_of_zero_le (by omega : 0 ≤ -exponent)
    obtain rfl : exponent = -(k : ℤ) := by omega
    have hden : 0 < Nat.pow 10 k := Nat.pow_pos (by decide)
    obtain ⟨bits, hbits, hnearest, heq⟩ := nearest_bits digits hden
    refine ⟨bits, hbits, ?_, fun negative => ?_⟩
    · convert hnearest using 1
      simp [div_eq_mul_inv]
    · simpa using heq negative

/-! ## The nearest double -/

/-- A magnitude with a sign. -/
def signedValue (negative : Bool) (v : ℚ) : ℚ := if negative then -v else v

/-- The exact value of a double; an infinity stands at the first power of two beyond the
    doubles. -/
def exactValue (x : Float) : ℚ :=
  match parts x with
  | .finite negative m e => signedValue negative (m * 2 ^ e)
  | .infinite negative => signedValue negative (2 ^ 1024)
  | .nan => 0

/-- The double nearest to a value, a tie going to the even significand, and what lies beyond
    the largest double to infinity. -/
structure IsNearest (v : ℚ) (x : Float) : Prop where
  number : parts x ≠ .nan
  le : ∀ y, parts y ≠ .nan → |v - exactValue x| ≤ |v - exactValue y|
  even : ∀ y, parts y ≠ .nan → exactValue y ≠ exactValue x →
    |v - exactValue x| = |v - exactValue y| → magnitudeBits x % 2 = 0

/-- The value of a number is that of its magnitude bits with the sign. -/
theorem exactValue_eq {x : Float} (h : parts x ≠ .nan) : magnitudeBits x ≤ infinityBits ∧
    exactValue x = signedValue (isNegative x) (magnitudeOf (magnitudeBits x)) := by
  have hlt : magnitudeBits x < 2 ^ 63 := Nat.mod_lt _ (by decide)
  have hsplit := Nat.div_add_mod' (magnitudeBits x) unitBit
  have hu := unitBit_eq
  unfold exactValue
  unfold parts at h ⊢
  dsimp only at h ⊢
  split_ifs at h ⊢ with hfield hfraction hzero
  · have hbits : magnitudeBits x = infinityBits := by
      rw [hfield, hfraction] at hsplit
      exact hsplit.symm
    rw [hbits, magnitudeOf_infinityBits]
    exact ⟨le_rfl, rfl⟩
  · exact absurd rfl h
  · refine ⟨?_, ?_⟩
    · simp only [infinityBits, hu] at hzero ⊢
      omega
    · rw [magnitudeOf, if_pos hzero]
  · refine ⟨?_, ?_⟩
    · simp only [infinityBits, hu] at hfield ⊢
      omega
    · rw [magnitudeOf, if_neg hzero]

theorem parts_ofMagnitude_ne_nan (negative : Bool) {bits : ℕ} (h : bits ≤ infinityBits) :
    parts (ofMagnitude negative bits) ≠ .nan := by
  have hu := unitBit_eq
  unfold parts
  dsimp only
  rw [magnitudeBits_ofMagnitude h]
  split_ifs with hfield hfraction hzero
  · exact Parts.noConfusion
  · refine absurd ?_ hfraction
    simp only [infinityBits, hu] at h hfield ⊢
    omega
  · exact Parts.noConfusion
  · exact Parts.noConfusion

theorem abs_signedValue (negative : Bool) (v : ℚ) : |signedValue negative v| = |v| := by
  cases negative with
  | false => rfl
  | true => exact abs_neg v

theorem abs_signedValue_sub (negative : Bool) (a b : ℚ) :
    |signedValue negative a - signedValue negative b| = |a - b| := by
  cases negative with
  | false => rfl
  | true =>
    have hneg : signedValue true a - signedValue true b = -(a - b) := by
      simp only [signedValue, if_true]
      ring
    rw [hneg, abs_neg]

theorem signedValue_zero (negative : Bool) : signedValue negative 0 = 0 := by
  cases negative <;> simp [signedValue]

/-- A magnitude is no farther from another than with any signs, and as far with different
    ones only if one of them is zero. -/
theorem abs_sub_le_signed {a b : ℚ} (ha : 0 ≤ a) (hb : 0 ≤ b) (negative negative' : Bool) :
    |a - b| ≤ |signedValue negative a - signedValue negative' b| ∧
      (|a - b| = |signedValue negative a - signedValue negative' b| →
        negative = negative' ∨ a = 0 ∨ b = 0) := by
  by_cases hsame : negative = negative'
  · subst hsame
    exact ⟨(abs_signedValue_sub negative a b).ge, fun _ => .inl rfl⟩
  · obtain rfl : negative' = !negative := by
      cases negative <;> cases negative' <;> simp_all
    have hsum : |signedValue negative a - signedValue (!negative) b| = a + b := by
      have hopposite : signedValue (!negative) b = signedValue negative (-b) := by
        cases negative <;> simp [signedValue]
      rw [hopposite, abs_signedValue_sub, sub_neg_eq_add, abs_of_nonneg (add_nonneg ha hb)]
    rw [hsum]
    refine ⟨abs_le.2 ⟨by linarith, by linarith⟩, fun heq => .inr ?_⟩
    rcases le_total a b with hab | hab
    · rw [abs_of_nonpos (by linarith)] at heq
      exact .inl (by linarith)
    · rw [abs_of_nonneg (by linarith)] at heq
      exact .inr (by linarith)

theorem magnitudeOf_nonneg (bits : ℕ) : 0 ≤ magnitudeOf bits := by
  unfold magnitudeOf
  split_ifs <;> positivity

section
variable {v : ℚ} (hv : 0 ≤ v) {bits : ℕ} (h : IsNearestBits v bits) (negative : Bool)
include hv h

/-- With its sign, the nearest magnitude is nearest among all with their signs. -/
theorem IsNearestBits.signed (negative' : Bool) {b : ℕ} (hb : b ≤ infinityBits) :
    |v - magnitudeOf bits| ≤ |signedValue negative v - signedValue negative' (magnitudeOf b)| ∧
      (signedValue negative' (magnitudeOf b) ≠ signedValue negative (magnitudeOf bits) →
        |v - magnitudeOf bits| = |signedValue negative v - signedValue negative' (magnitudeOf b)| →
        bits % 2 = 0) := by
  obtain ⟨hle, htie⟩ := abs_sub_le_signed hv (magnitudeOf_nonneg b) negative negative'
  obtain ⟨hnear, heven⟩ := h b hb
  refine ⟨hnear.trans hle, fun hne heq => ?_⟩
  have hsame : |v - magnitudeOf bits| = |v - magnitudeOf b| := le_antisymm hnear (heq ▸ hle)
  refine heven (fun hmagnitude => hne ?_) hsame
  -- as far with the same magnitude: the same but for the sign of zero
  rcases htie (hsame ▸ heq) with rfl | hzero | hzero
  · rw [hmagnitude]
  · have hbits : magnitudeOf bits = 0 := by
      have hle := (h 0 (Nat.zero_le _)).1
      rw [magnitudeOf_zero, hzero, sub_zero, abs_zero, zero_sub, abs_neg] at hle
      exact abs_nonpos_iff.1 hle
    rw [hmagnitude, hbits, signedValue_zero, signedValue_zero]
  · rw [← hmagnitude, hzero, signedValue_zero, signedValue_zero]

/-- The nearest magnitude with the sign of a value is the nearest double. -/
theorem IsNearestBits.isNearest (hbits : bits ≤ infinityBits) :
    IsNearest (signedValue negative v) (ofMagnitude negative bits) := by
  have hnumber := parts_ofMagnitude_ne_nan negative hbits
  have hvalue : exactValue (ofMagnitude negative bits) = signedValue negative (magnitudeOf bits) := by
    obtain ⟨-, hvalue⟩ := exactValue_eq hnumber
    rwa [isNegative_ofMagnitude hbits, magnitudeBits_ofMagnitude hbits] at hvalue
  have hall : ∀ y, parts y ≠ .nan → _ := fun y hy =>
    h.signed hv negative (isNegative y) (exactValue_eq hy).1
  refine ⟨hnumber, fun y hy => ?_, fun y hy => ?_⟩
  · rw [hvalue, (exactValue_eq hy).2, abs_signedValue_sub]
    exact (hall y hy).1
  · rw [hvalue, (exactValue_eq hy).2, abs_signedValue_sub, magnitudeBits_ofMagnitude hbits]
    exact (hall y hy).2

end

/-- The double of a value that is not zero is at least the least power of two. -/
theorem two_pow_le_exactValue {x : Float} {negative : Bool} {m : ℕ} {e : ℤ}
    (hparts : parts x = .finite negative m e) (hm : m ≠ 0) (he : leastExponent ≤ e) :
    (2 : ℚ) ^ leastExponent ≤ |exactValue x| := by
  have hone : (1 : ℚ) ≤ m := by exact_mod_cast Nat.one_le_iff_ne_zero.2 hm
  have hpow : (2 : ℚ) ^ leastExponent ≤ 2 ^ e := zpow_le_zpow_right₀ (by norm_num) he
  unfold exactValue
  rw [hparts]
  dsimp only
  rw [abs_signedValue, abs_of_nonneg (by positivity)]
  calc (2 : ℚ) ^ leastExponent ≤ 1 * 2 ^ e := by rwa [one_mul]
    _ ≤ m * 2 ^ e := by gcongr

/-- A value is at least half its double, since the double is no nearer to zero. -/
theorem IsNearest.abs_exactValue_le {v : ℚ} {x : Float} (h : IsNearest v x) :
    |exactValue x| ≤ 2 * |v| := by
  have hnumber : parts (zero false) ≠ .nan :=
    parts_ofMagnitude_ne_nan false (Nat.zero_le infinityBits)
  have hzero : exactValue (zero false) = 0 := by
    have hbits : magnitudeBits (zero false) = 0 := magnitudeBits_ofMagnitude (Nat.zero_le _)
    obtain ⟨-, hvalue⟩ := exactValue_eq hnumber
    rwa [hbits, magnitudeOf_zero, signedValue_zero] at hvalue
  have hle : |v - exactValue x| ≤ |v| := by
    have hle := h.le (zero false) hnumber
    rwa [hzero, sub_zero] at hle
  calc |exactValue x| = |v - (v - exactValue x)| := by rw [sub_sub_cancel]
    _ ≤ |v| + |v - exactValue x| := abs_sub _ _
    _ ≤ 2 * |v| := by linarith

/-- The exact value of a numeral. -/
def Decimal.value (d : Decimal) : ℚ := signedValue d.negative (d.digits * 10 ^ d.exponent)

/-- **The double of a numeral is the nearest one.** -/
theorem Decimal.isNearest_toDouble (d : Decimal) : IsNearest d.value d.toDouble := by
  obtain ⟨bits, hbits, hnearest, heq⟩ := toDouble_bits d.digits d.exponent
  rw [heq d.negative]
  exact hnearest.isNearest (by positivity) d.negative hbits

end Rulebook.Number

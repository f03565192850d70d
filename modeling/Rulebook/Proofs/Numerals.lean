/-
  Numerals spelled out and read back.

  * `isDigit_of_ascii`, `digitsValue_digitsOf`: the digits of a natural spell it.
  * `Spelled whole fraction cs`: `cs` is a numeral without sign or exponent, with
    these digits before and after the point.
  * `plainText_spelled`: the plain text of a finite double is a spelled numeral of its
    magnitude, behind a minus where the double is negative.
-/
import Rulebook.Proofs.Nearest
import Rulebook.Token.Scan
import Rulebook.Number.Numeral

namespace Rulebook.Number

open Text

/-! ## ASCII digits -/

/-- No later start is reached before the next one. -/
theorem foldl_starts {starts : List ℕ} {n : ℕ} (h : ∀ s ∈ starts, n < s) (found : Option ℕ) :
    starts.foldl (fun found s => if s ≤ n then some s else found) found = found := by
  induction starts generalizing found with
  | nil => rfl
  | cons s starts ih =>
    have hs : n < s := h s (by simp)
    rw [List.foldl_cons, if_neg (by omega)]
    exact ih (fun s hs => h s (by simp [hs])) found

/-- Below the second script's digits only the ASCII ones count. -/
theorem digitValue?_of_lt {c : Char} (h : c.toNat < 0x660) :
    digitValue? c = if 0x30 ≤ c.toNat ∧ c.toNat < 0x3A then some (c.toNat - 0x30) else none := by
  have hlater : ∀ s ∈ digitZeros.toList.tail, 0x660 ≤ s := by decide
  have hsplit : digitZeros.toList = 0x30 :: digitZeros.toList.tail := rfl
  have hlast : lastAtMost? digitZeros c = if 0x30 ≤ c.toNat then some 0x30 else none := by
    rw [lastAtMost?, ← Array.foldl_toList, hsplit, List.foldl_cons]
    exact foldl_starts (fun s hs => lt_of_lt_of_le h (hlater s hs)) _
  rw [digitValue?, hlast]
  by_cases h₁ : 0x30 ≤ c.toNat
  · simp [h₁]
  · simp [h₁]

theorem digitValue?_of_isDigit {c : Char} (h : c.isDigit = true) :
    digitValue? c = some (c.toNat - 0x30) := by
  have hr : 0x30 ≤ c.toNat ∧ c.toNat < 0x3A := by
    simp only [Char.isDigit, Bool.and_eq_true, decide_eq_true_eq] at h
    have h₁ : 48 ≤ c.toNat := UInt32.le_iff_toNat_le.1 h.1
    have h₂ : c.toNat ≤ 57 := UInt32.le_iff_toNat_le.1 h.2
    omega
  rw [digitValue?_of_lt (by omega), if_pos hr]

theorem isDigit_of_ascii {c : Char} (h : c.isDigit = true) : isDigit c = true := by
  simp [isDigit, digitValue?_of_isDigit h]

theorem isDigit_eq_false {c : Char} (h : c.toNat < 0x30 ∨ 0x39 < c.toNat)
    (h' : c.toNat < 0x660) : isDigit c = false := by
  rw [isDigit, digitValue?_of_lt h', if_neg (by omega)]
  rfl

/-- Digits of ASCII. -/
def Digits (cs : List Char) : Prop := ∀ c ∈ cs, c.isDigit = true

theorem Digits.append {cs ds : List Char} (hc : Digits cs) (hd : Digits ds) :
    Digits (cs ++ ds) := by
  intro c h
  rcases List.mem_append.1 h with h | h
  exacts [hc c h, hd c h]

theorem digits_zeros (n : ℕ) : Digits (zeros n) := by
  intro c h
  rw [List.eq_of_mem_replicate h]
  rfl

theorem digits_digitsOf (n : ℕ) : Digits (digitsOf n) := fun _ h =>
  Nat.isDigit_of_mem_toDigits (by omega) (by omega) h

/-! ## The value of digits -/

/-- The value of digits that follow others. -/
def valueFrom (n : ℕ) (cs : List Char) : ℕ :=
  cs.foldl (fun n c => 10 * n + (digitValue? c).getD 0) n

theorem digitsValue_append (cs ds : List Char) :
    digitsValue (cs ++ ds) = valueFrom (digitsValue cs) ds := by
  rw [digitsValue, List.foldl_append]
  rfl

theorem valueFrom_zeros (n k : ℕ) : valueFrom n (zeros k) = n * 10 ^ k := by
  induction k generalizing n with
  | zero => simp [valueFrom, zeros]
  | succ k ih =>
    have hzero : (digitValue? '0').getD 0 = 0 := rfl
    have hstep : valueFrom n (zeros (k + 1)) = valueFrom (10 * n) (zeros k) := by
      simp [valueFrom, zeros, List.replicate_succ, hzero]
    rw [hstep, ih, pow_succ]
    ring

theorem digitsValue_eq_ofDigitChars {cs : List Char} (h : Digits cs) :
    digitsValue cs = Nat.ofDigitChars 10 cs 0 := by
  have hfold : ∀ n, valueFrom n cs = Nat.ofDigitChars 10 cs n := by
    induction cs with
    | nil => intro n; simp [valueFrom]
    | cons c cs ih =>
      intro n
      rw [Nat.ofDigitChars_cons, ← ih fun c hc => h c (by simp [hc])]
      simp [valueFrom, digitValue?_of_isDigit (h c (by simp))]
  exact hfold 0

theorem digitsValue_digitsOf (n : ℕ) : digitsValue (digitsOf n) = n := by
  rw [digitsValue_eq_ofDigitChars (digits_digitsOf n)]
  exact Nat.ofDigitChars_ten_toDigits

theorem digitsValue_zeros_append (k : ℕ) (cs : List Char) :
    digitsValue (zeros k ++ cs) = digitsValue cs := by
  have hzero : digitsValue (zeros k) = 0 := by
    have := valueFrom_zeros 0 k
    rwa [zero_mul] at this
  rw [digitsValue_append, hzero]
  rfl

/-! ## Spelled numerals -/

/-- Digits before and after a point, or digits alone where none are after it. -/
def spelled (whole fraction : List Char) : List Char :=
  if fraction = [] then whole else whole ++ '.' :: fraction

/-- `cs` spells a numeral with these digits before and after the point. -/
structure Spelled (whole fraction cs : List Char) : Prop where
  eq : cs = spelled whole fraction
  nonempty : whole ≠ []
  whole : Digits whole
  fraction : Digits fraction

/-- A run of a class ends where the next element is not of it. -/
theorem takeWhile_append_stop {α : Type} {p : α → Bool} {xs : List α}
    (h : ∀ x ∈ xs, p x = true) (rest : List α) (hr : ∀ x ∈ rest.head?, p x = false) :
    (xs ++ rest).takeWhile p = xs ∧ (xs ++ rest).dropWhile p = rest := by
  rw [List.takeWhile_append_of_pos h, List.dropWhile_append_of_pos h]
  cases rest with
  | nil => simp
  | cons x rest =>
    have hx : p x = false := hr x rfl
    simp [hx]

theorem Digits.isDigit {cs : List Char} (h : Digits cs) : ∀ c ∈ cs, Text.isDigit c = true :=
  fun c hc => isDigit_of_ascii (h c hc)

theorem isDigit_point : isDigit '.' = false := rfl

theorem Spelled.significand? {whole fraction cs : List Char} (h : Spelled whole fraction cs) :
    significand? cs = some (whole, fraction, []) := by
  obtain ⟨rfl, hne, hw, hf⟩ := h
  have hne' : whole.isEmpty = false := by simpa using hne
  unfold spelled Number.significand?
  split_ifs with hfraction
  · obtain ⟨ht, hd⟩ := takeWhile_append_stop hw.isDigit [] (by simp)
    rw [List.append_nil] at ht hd
    simp [ht, hd, hne', hfraction]
  · obtain ⟨ht, hd⟩ := takeWhile_append_stop hw.isDigit ('.' :: fraction)
      (by simp [isDigit_point])
    obtain ⟨ht', hd'⟩ := takeWhile_append_stop hf.isDigit [] (by simp)
    rw [List.append_nil] at ht' hd'
    simp [ht, hd, ht', hd', hne']

/-- A spelled numeral begins with a digit. -/
theorem Spelled.head {whole fraction cs : List Char} (h : Spelled whole fraction cs) :
    ∃ c rest, cs = c :: rest ∧ c.isDigit = true := by
  obtain ⟨rfl, hne, hw, -⟩ := h
  cases whole with
  | nil => exact absurd rfl hne
  | cons c whole =>
    refine ⟨c, if fraction = [] then whole else whole ++ '.' :: fraction, ?_, hw c (by simp)⟩
    unfold spelled
    split_ifs <;> rfl

theorem takeSign_withSign {negative : Bool} {cs : List Char}
    (h : ∃ c rest, cs = c :: rest ∧ c.isDigit = true) :
    takeSign (withSign negative cs) = (negative, cs) := by
  cases negative with
  | true => rfl
  | false =>
    obtain ⟨c, rest, rfl, hc⟩ := h
    rw [withSign, if_neg (by simp)]
    unfold takeSign
    split
    · next heq => cases heq; cases hc
    · next heq => cases heq; cases hc
    · rfl

/-- What a spelled numeral reads as. -/
theorem Spelled.numeral? {negative : Bool} {whole fraction cs : List Char}
    (h : Spelled whole fraction cs) :
    numeral? (withSign negative cs) =
      some ⟨negative, digitsValue (whole ++ fraction), -fraction.length⟩ := by
  unfold Number.numeral?
  rw [takeSign_withSign h.head]
  simp [h.significand?, exponentPart?]

/-! ## Numerals by position -/

/-- Digits with a point put in spell a numeral: zeros fill the gap before the
    point or take the place of digits behind it. -/
theorem placePoint_spelled {ds : List Char} (hds : Digits ds) (hne : ds ≠ []) (point : ℤ) :
    ∃ whole fraction, Spelled whole fraction (placePoint ds point) ∧
      digitsValue (whole ++ fraction) = digitsValue ds * 10 ^ (point - ds.length).toNat ∧
      (fraction.length : ℤ) = max 0 (ds.length - point) := by
  have hlength : 0 < ds.length := List.length_pos_iff.2 hne
  unfold placePoint
  split_ifs with hpoint hwhole
  · have hfraction : zeros (-point).toNat ++ ds ≠ [] := by simp [hne]
    have hdigits : Digits (zeros (-point).toNat ++ ds) := (digits_zeros _).append hds
    refine ⟨['0'], zeros (-point).toNat ++ ds, ⟨?_, by simp, by simp [Digits], hdigits⟩, ?_, ?_⟩
    · rw [spelled, if_neg hfraction]
      rfl
    · have hsplit : ['0'] ++ (zeros (-point).toNat ++ ds) = zeros ((-point).toNat + 1) ++ ds := rfl
      have hexp : (point - ds.length).toNat = 0 := by omega
      rw [hsplit, digitsValue_zeros_append, hexp, pow_zero, mul_one]
    · simp only [List.length_append, zeros, List.length_replicate]
      omega
  · have hdigits : Digits (ds ++ zeros (point.toNat - ds.length)) := hds.append (digits_zeros _)
    refine ⟨_, [], ⟨by simp [spelled], by simp [hne], hdigits, by simp [Digits]⟩, ?_, ?_⟩
    · have hexp : (point - ds.length).toNat = point.toNat - ds.length := by omega
      rw [List.append_nil, digitsValue_append, valueFrom_zeros, hexp]
    · simp only [List.length_nil]
      omega
  · have hfraction : ds.drop point.toNat ≠ [] := by
      simp only [ne_eq, List.drop_eq_nil_iff]
      omega
    have hwhole' : ds.take point.toNat ≠ [] := by
      simp only [ne_eq, List.take_eq_nil_iff, hne, or_false]
      omega
    refine ⟨ds.take point.toNat, ds.drop point.toNat, ⟨?_, hwhole', ?_, ?_⟩, ?_, ?_⟩
    · rw [spelled, if_neg hfraction]
    · exact fun c hc => hds c (List.mem_of_mem_take hc)
    · exact fun c hc => hds c (List.mem_of_mem_drop hc)
    · have hexp : (point - ds.length).toNat = 0 := by omega
      rw [List.take_append_drop, hexp, pow_zero, mul_one]
    · simp only [List.length_drop]
      omega

/-- Beyond the far exponent there is no finite double. -/
theorem exponent_le_of_isFinite {d : Decimal} (h : isFinite d.toDouble = true)
    (hd : d.digits ≠ 0) : d.exponent ≤ Decimal.farExponent := by
  by_contra hlt
  have hinfinite : d.toDouble = infinity d.negative := by
    rw [Decimal.toDouble, if_neg hd, if_pos (not_le.1 hlt)]
  rw [hinfinite, isFinite_iff, infinity, magnitudeBits_ofMagnitude le_rfl] at h
  exact lt_irrefl _ h

/-- The zeros at the end of a whole numeral may stand for its exponent. -/
theorem toDouble_shift {d : Decimal} (hd : d.digits ≠ 0) (he : 0 ≤ d.exponent)
    (hfar : d.exponent ≤ Decimal.farExponent) :
    (⟨d.negative, d.digits * 10 ^ d.exponent.toNat, 0⟩ : Decimal).toDouble = d.toDouble := by
  have hne : d.digits * 10 ^ d.exponent.toNat ≠ 0 := Nat.mul_ne_zero hd (by positivity)
  have hfar' : ¬ Decimal.farExponent < (0 : ℤ) := by decide
  have hlow : ¬ (0 : ℤ) < -(Decimal.farExponent + (d.digits * 10 ^ d.exponent.toNat).log2) := by
    unfold Decimal.farExponent
    omega
  have hlow' : ¬ d.exponent < -(Decimal.farExponent + d.digits.log2) := by
    unfold Decimal.farExponent
    omega
  unfold Decimal.toDouble
  rw [if_neg hne, if_neg hfar', if_neg hlow, if_pos le_rfl, if_neg hd, if_neg (not_lt.2 hfar),
    if_neg hlow', if_pos he]
  simp

/-- The numeral that digits before and after a point spell. -/
def spelledDecimal (negative : Bool) (whole fraction : List Char) : Decimal :=
  ⟨negative, digitsValue (whole ++ fraction), -fraction.length⟩

/-- A numeral with a finite double is spelled out by position. -/
theorem Decimal.plain_spelled {d : Decimal} (h : isFinite d.toDouble = true) :
    ∃ whole fraction cs, Spelled whole fraction cs ∧ d.plain = withSign d.negative cs ∧
      (spelledDecimal d.negative whole fraction).toDouble = d.toDouble := by
  unfold Decimal.plain
  by_cases hd : d.digits = 0
  · refine ⟨['0'], [], ['0'], ⟨rfl, by simp, by simp [Digits], by simp [Digits]⟩, ?_, ?_⟩
    · rw [if_pos hd]
    · have hzero : (spelledDecimal d.negative ['0'] []).digits = 0 := rfl
      rw [Decimal.toDouble, if_pos hzero, Decimal.toDouble, if_pos hd]
      rfl
  · obtain ⟨whole, fraction, hspelled, hvalue, hlength⟩ := placePoint_spelled
      (digits_digitsOf d.digits) Nat.toDigits_ne_nil ((digitsOf d.digits).length + d.exponent)
    refine ⟨whole, fraction, _, hspelled, by rw [if_neg hd], ?_⟩
    rw [digitsValue_digitsOf, add_sub_cancel_left] at hvalue
    rw [spelledDecimal, hvalue, hlength]
    by_cases he : 0 ≤ d.exponent
    · have hexp : -max 0 (((digitsOf d.digits).length : ℤ) - ((digitsOf d.digits).length +
          d.exponent)) = 0 := by omega
      rw [hexp]
      exact toDouble_shift hd he (exponent_le_of_isFinite h hd)
    · have hexp : -max 0 (((digitsOf d.digits).length : ℤ) - ((digitsOf d.digits).length +
          d.exponent)) = d.exponent := by omega
      have hpow : d.exponent.toNat = 0 := by omega
      rw [hexp, hpow, pow_zero, mul_one]

/-! ## Doubles spelled out -/

theorem Spelled.numeralValue {whole fraction cs : List Char} (h : Spelled whole fraction cs) :
    numeralValue cs = (spelledDecimal false whole fraction).toDouble := by
  have hnumeral : Number.numeral? (withSign false cs) =
    some (spelledDecimal false whole fraction) := h.numeral?
  change Number.numeralValue (withSign false cs) = _
  rw [Number.numeralValue, hnumeral]

/-- **The plain text of a finite double** is a spelled numeral of its magnitude, with a
    minus where the double is negative. -/
theorem plainText_spelled {x : Float} (h : isFinite x = true) :
    ∃ whole fraction cs, Spelled whole fraction cs ∧
      (plainText x).toList = withSign (isNegative x) cs ∧ numeralValue cs = abs x := by
  obtain ⟨d, hd, hx⟩ := toDouble_shortest h
  have hnegative : isNegative x = d.negative := by rw [← hx, isNegative_toDouble]
  obtain ⟨whole, fraction, cs, hspelled, hplain, hdouble⟩ := d.plain_spelled (hx ▸ h)
  refine ⟨whole, fraction, cs, hspelled, ?_, ?_⟩
  · rw [plainText, hd, hnegative, ← hplain]
    simp
  · calc numeralValue cs
        = (spelledDecimal false whole fraction).toDouble := hspelled.numeralValue
      _ = abs (spelledDecimal d.negative whole fraction).toDouble :=
        toDouble_unsigned (spelledDecimal d.negative whole fraction)
      _ = abs x := by rw [hdouble, hx]

end Rulebook.Number

/-
  The text of a number, read again.

  * `IsLow c`: a character before the capital letters that is no blank, as all those of a
    plain numeral are. Such a text has nothing to trim (`trim_eq_self`) and no letter case
    (`lower_eq_self`).
  * `Spelled.numericText`: a spelled numeral reads as its number, sign included.
  * `numberText_spelled`: the text of a finite number is a spelled numeral of the number,
    zero without its sign. So it reads as the number (`numericText_numberText`), also as an
    argument (`ofArgument_of_isLow`).
-/
import Rulebook.Value.Argument
import Rulebook.Proofs.Literals
import Rulebook.Proofs.DoubleOrder

namespace Rulebook

open Text Number

/-! ## Texts without blanks and letters -/

/-- A character before the capital letters that is no blank. -/
def Text.IsLow (c : Char) : Prop := 0x21 ≤ c.toNat ∧ c.toNat < 0x41

theorem Text.IsLow.isBlank_eq_false {c : Char} (h : IsLow c) : isBlank c = false :=
  Rulebook.isBlank_eq_false h.1 (lt_trans h.2 (by decide))

/-- It is none of the characters from the capital letters on. -/
theorem Text.ne_of_lt {c d : Char} (h : c.toNat < 0x41) (hd : 0x41 ≤ d.toNat) : c ≠ d := by
  rintro rfl
  omega

theorem Text.stripBy_eq_self {p : Char → Bool} {cs : List Char} (h : ∀ c ∈ cs, p c = false) :
    stripBy p cs = cs := by
  have hkept : ∀ {ds : List Char}, (∀ c ∈ ds, p c = false) → ds.dropWhile p = ds := by
    intro ds hds
    cases ds with
    | nil => rfl
    | cons d ds => exact List.dropWhile_cons_of_neg (by simp [hds d (by simp)])
  rw [stripBy, hkept h, hkept (by simpa using h), List.reverse_reverse]

/-- No letter that has a lower case stands so low. -/
theorem Text.simpleLower_eq_self {c : Char} (h : c.toNat < 0x41) : simpleLower c = c := by
  have hruns : ∀ r ∈ lowerRuns, 0x41 ≤ r.first := by decide +kernel
  have hnone : caseCounterpart? lowerRuns c.toNat = none := by
    rw [caseCounterpart?, Option.map_eq_none_iff, Array.find?_eq_none]
    intro r hr
    have hfirst := hruns r hr
    simp only [Bool.and_eq_true, decide_eq_true_eq, beq_iff_eq]
    omega
  rw [simpleLower, if_neg (ne_of_lt h (by decide)), hnone]

theorem Text.lowerFrom_eq_self {cs : List Char} (h : ∀ c ∈ cs, c.toNat < 0x41)
    (before : List Char) : lowerFrom before cs = cs := by
  induction cs generalizing before with
  | nil => rfl
  | cons c cs ih =>
    have hlow : c.toNat < 0x41 := h c (by simp)
    have hrest := ih (fun d hd => h d (by simp [hd])) (c :: before)
    rw [lowerFrom, if_neg (ne_of_lt hlow (by decide)), if_neg (ne_of_lt hlow (by decide)),
      simpleLower_eq_self hlow, hrest]
    rfl

section
variable {s : String} (h : ∀ c ∈ s.toList, IsLow c)
include h

theorem Text.trim_eq_self : trim s = s := by
  rw [trim, stripBy_eq_self (fun c hc => (h c hc).isBlank_eq_false), String.ofList_toList]

theorem Text.lower_eq_self : lower s = s := by
  rw [lower, lowerFrom_eq_self (fun c hc => (h c hc).2), String.ofList_toList]

/-- An argument without letters is no word, so a number if it reads as one. -/
theorem Value.ofArgument_of_isLow {x : Float} (hx : (Value.text s).toNumber = .ok (some x)) :
    Value.ofArgument s = .ok (.number x) := by
  have hword : lower (trim s) = s := by rw [trim_eq_self h, lower_eq_self h]
  have hletter : ∀ {c : Char} {word : String}, c ∈ word.toList → 0x41 ≤ c.toNat → s ≠ word := by
    rintro c word hc hhigh rfl
    exact ne_of_lt (h c hc).2 hhigh rfl
  rw [Value.ofArgument, hword]
  split
  · exact absurd rfl (hletter (c := 't') (by decide) (by decide))
  · exact absurd rfl (hletter (c := 'f') (by decide) (by decide))
  · exact absurd rfl (hletter (c := 'n') (by decide) (by decide))
  · rw [hx]
    rfl

end

/-! ## Numerals -/

namespace Number

variable {whole fraction cs : List Char}

theorem Digits.isLow (h : Digits cs) : ∀ c ∈ cs, IsLow c := fun c hc => by
  have hrange := isDigit_range (h c hc)
  exact ⟨by omega, by omega⟩

theorem Spelled.isLow (h : Spelled whole fraction cs) (negative : Bool) :
    ∀ c ∈ withSign negative cs, IsLow c := by
  have hcs : ∀ c ∈ cs, IsLow c := by
    intro c hc
    rw [h.eq, spelled] at hc
    split_ifs at hc
    · exact h.whole.isLow c hc
    · rcases List.mem_append.1 hc with hc | hc
      · exact h.whole.isLow c hc
      · rcases List.mem_cons.1 hc with rfl | hc
        · exact ⟨by decide, by decide⟩
        · exact h.fraction.isLow c hc
  cases negative with
  | false => exact hcs
  | true => exact List.forall_mem_cons.2 ⟨⟨by decide, by decide⟩, hcs⟩

/-- A spelled numeral reads as its number. -/
theorem Spelled.numericText {s : String} {negative : Bool} (h : Spelled whole fraction cs)
    (hs : s.toList = withSign negative cs) :
    numericText s = .number (spelledDecimal negative whole fraction).toDouble := by
  have hlow : ∀ c ∈ s.toList, IsLow c := hs ▸ h.isLow negative
  have hblank : ∀ c ∈ s.toList, isBlank c = false := fun c hc => (hlow c hc).isBlank_eq_false
  have hseparator : s.toList.any isInformationSeparator = false := by
    simp only [List.any_eq_false, isInformationSeparator, Bool.and_eq_true, decide_eq_true_eq]
    intro c hc
    have := (hlow c hc).1
    omega
  have hnumeral : Number.numeral? s.toList = some (spelledDecimal negative whole fraction) := by
    rw [hs]
    exact h.numeral?
  rw [Number.numericText, stripBy_eq_self hblank, hnumeral]
  simp only [hseparator, Bool.false_eq_true, if_false]

end Number

/-! ## The text of a number -/

/-- The text of a finite number is a spelled numeral of the number without the sign of
    zero, with a minus where that is negative. -/
theorem Value.numberText_spelled {x : Float} (hfinite : Number.isFinite x = true) :
    ∃ whole fraction cs, Spelled whole fraction cs ∧
      (numberText x).toList = withSign (isNegative (unsignedZero x)) cs ∧
      (spelledDecimal (isNegative (unsignedZero x)) whole fraction).toDouble =
        unsignedZero x := by
  unfold numberText unsignedZero
  split_ifs with hzero
  · exact ⟨['0'], [], ['0'], ⟨rfl, by simp, by simp [Digits], by simp [Digits]⟩,
      by decide +kernel, by decide +kernel⟩
  · obtain ⟨d, hd, hx⟩ := toDouble_shortest hfinite
    have hnegative : isNegative x = d.negative := by rw [← hx, isNegative_toDouble]
    obtain ⟨whole, fraction, cs, hspelled, hplain, hdouble⟩ := d.plain_spelled (hx ▸ hfinite)
    refine ⟨whole, fraction, cs, hspelled, ?_, ?_⟩
    · rw [plainText, hd, hnegative, ← hplain]
      simp
    · rw [hnegative, hdouble, hx]

/-- The text of a finite number reads as the number. -/
theorem Value.numericText_numberText {x : Float} (hfinite : Number.isFinite x = true) :
    numericText (numberText x) = .number (unsignedZero x) := by
  obtain ⟨whole, fraction, cs, hspelled, htext, hvalue⟩ := numberText_spelled hfinite
  rw [hspelled.numericText htext, hvalue]

end Rulebook

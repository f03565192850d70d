/-
  Doubles and their bits.

  `toBits_ofBits` and `ofBits_toBits`: away from the patterns of NaN, a double and
  its 64 bits determine each other. Hence a double is `ofMagnitude` of its sign
  and its magnitude, and `ofMagnitude` has the sign and magnitude given to it;
  `neg_ofMagnitude`: its negative is the one with the other sign.
-/
import Mathlib
import Rulebook.Number.Double

namespace Rulebook.Number

open Float.Model.UnpackedFloat
open Float.Model (Format)

/-! ## Packing what was unpacked -/

section
variable (b : BitVec 64)

/-- The exponent field of 64 bits. -/
abbrev exponentField : BitVec 11 := @unpackExponent Format.binary64 b

/-- The fraction field of 64 bits. -/
abbrev fractionField : BitVec 52 := @unpackMantissa Format.binary64 b

theorem toNat_exponentField : (exponentField b).toNat = b.toNat / 2 ^ 52 % 2 ^ 11 := by
  simp [exponentField, unpackExponent, Nat.shiftRight_eq_div_pow]

theorem toNat_fractionField : (fractionField b).toNat = b.toNat % 2 ^ 52 := by
  simp [fractionField, unpackMantissa]

theorem unpackSign_eq : @unpackSign Format.binary64 b = BitVec.ofNat 1 (b.toNat / 2 ^ 63) := by
  apply BitVec.eq_of_toNat_eq
  simp [unpackSign, Nat.shiftRight_eq_div_pow]

theorem toBitVec_ofBitVec (s : BitVec 1) : (Sign.ofBitVec s).toBitVec = s := by
  revert s; decide

/-- The fields put together again are the bits. -/
theorem packComponents_fields :
    packComponents Format.binary64 (Sign.ofBitVec (@unpackSign Format.binary64 b))
      (exponentField b) (fractionField b) = b := by
  apply BitVec.eq_of_getLsbD_eq
  intro i hi
  have hi' : i < 64 := hi
  simp only [packComponents, toBitVec_ofBitVec, unpackSign, exponentField, unpackExponent,
    fractionField, unpackMantissa, BitVec.getLsbD_append, BitVec.getLsbD_cast,
    BitVec.getLsbD_extractLsb]
  by_cases h₁ : i < 52
  · simp [h₁]
  · by_cases h₂ : i - 52 < 11
    · have e : 52 + (i - 52) = i := by omega
      simp [h₁, h₂, e]
    · have e : i = 63 := by omega
      subst e
      simp

/-- The significand of a normal double: the fraction with the unit bit in front. -/
theorem toNat_unit_append : (1#1 ++ fractionField b).toNat = 2 ^ 52 + (fractionField b).toNat := by
  have hlt : (fractionField b).toNat < 2 ^ 52 := BitVec.isLt _
  rw [BitVec.toNat_append, Nat.shiftLeft_eq, Nat.mul_comm, ← Nat.two_pow_add_eq_or_of_lt hlt]
  rfl

/-- The exponent field of a finite double whose least bit has the weight `2 ^ e`,
    if it is normal. -/
abbrev biased (e : Int) : Nat :=
  (e + Format.binary64.exponentBias + Format.binary64.mantissaBitsWithoutImplicit).toNat

theorem pack_subnormal (s : Sign) {m : Nat} {e : Int} (hpos : 0 < m) (hm : m < 2 ^ 52)
    (he : biased e + 1 < 2 ^ 11) :
    pack Format.binary64 (.finite s m e hpos) =
      packComponents Format.binary64 s 0#_ (BitVec.ofNat _ m) := by
  have hlog : m.log2 < 52 := (Nat.log2_lt (by omega)).2 hm
  have hbits : Format.binary64.mantissaBits = 53 := rfl
  simp only [pack]
  rw [if_neg (by exact Nat.not_le.2 he), if_neg (by omega)]

theorem pack_normal (s : Sign) {m : Nat} {e : Int} (hpos : 0 < m) (hm : 2 ^ 52 ≤ m)
    (hm' : m < 2 ^ 53) (he : biased e + 1 < 2 ^ 11) :
    pack Format.binary64 (.finite s m e hpos) =
      packComponents Format.binary64 s (BitVec.ofNat _ (biased e)) (BitVec.ofNat _ m) := by
  have hlog : m.log2 = 52 := (Nat.log2_eq_iff (by omega)).2 ⟨hm, hm'⟩
  have hbits : Format.binary64.mantissaBits = 53 := rfl
  simp only [pack]
  rw [if_neg (by exact Nat.not_le.2 he), if_pos (by omega)]

/-- The unit bit does not show in the fraction. -/
theorem ofNat_unit_append : BitVec.ofNat 52 (1#1 ++ fractionField b).toNat = fractionField b := by
  have hlt : (fractionField b).toNat < 2 ^ 52 := BitVec.isLt _
  apply BitVec.eq_of_toNat_eq
  rw [toNat_unit_append, BitVec.toNat_ofNat, Nat.add_mod_left, Nat.mod_eq_of_lt hlt]

theorem pack_unpack (h : exponentField b = -1#_ → fractionField b = 0#_) :
    pack Format.binary64 (Float.Model.UnpackedFloat.unpack Format.binary64 b) = b := by
  have hb := packComponents_fields b
  have hlt : (fractionField b).toNat < 2 ^ 52 := BitVec.isLt _
  unfold Float.Model.UnpackedFloat.unpack
  dsimp only
  split_ifs with he hm hz hm
  · have hfields : exponentField b = -1#_ ∧ fractionField b = 0#_ := ⟨he, hm⟩
    rw [hfields.1, hfields.2] at hb
    exact hb
  · exact absurd (h he) hm
  · have hfields : exponentField b = 0#_ ∧ fractionField b = 0#_ := ⟨hz, hm⟩
    rw [hfields.1, hfields.2] at hb
    exact hb
  · -- a subnormal double
    have hzero : exponentField b = 0#_ := hz
    refine (pack_subnormal _ _ hlt ?_).trans ?_
    · rw [hz]
      decide
    · rw [hzero] at hb
      rw [BitVec.ofNat_toNat]
      simpa using hb
  · -- a normal double
    have helt : (exponentField b).toNat < 2 ^ 11 := BitVec.isLt _
    have hene : (exponentField b).toNat ≠ 2 ^ 11 - 1 := by
      intro h'
      exact he (BitVec.eq_of_toNat_eq h')
    have hbias : biased ((exponentField b).toNat - (Format.binary64.exponentBias +
        Format.binary64.mantissaBitsWithoutImplicit)) = (exponentField b).toNat := by
      simp only [biased]
      omega
    have hm := toNat_unit_append b
    refine (pack_normal _ _ ?_ ?_ ?_).trans ?_
    · exact hm ▸ Nat.le_add_right _ _
    · rw [hm]
      omega
    · rw [hbias]
      omega
    · rw [hbias, BitVec.ofNat_toNat, ofNat_unit_append]
      simpa using hb

end

/-! ## Bits of doubles -/

theorem unitBit_eq : unitBit = 2 ^ 52 := rfl

theorem signBit_eq : signBit = 2 ^ 63 := rfl

/-- The bits of any double but NaN. -/
theorem toBits_ofBits {b : UInt64} (h : b.toNat % signBit ≤ infinityBits) :
    (Float.ofBits b).toBits = b := by
  have hp : pack Format.binary64 (Float.Model.UnpackedFloat.unpack Format.binary64 b.toBitVec) =
      b.toBitVec := by
    refine pack_unpack b.toBitVec fun he => BitVec.eq_of_toNat_eq ?_
    have he' := congrArg BitVec.toNat he
    rw [toNat_exponentField] at he'
    rw [toNat_fractionField]
    simp only [infinityBits, unitBit_eq, signBit_eq, UInt64.toNat] at h
    have hfull : (-1#11 : BitVec 11).toNat = 2047 := rfl
    rw [hfull] at he'
    change _ = 0
    omega
  change UInt64.ofBitVec (pack Format.binary64
    (Float.Model.UnpackedFloat.unpack Format.binary64 b.toBitVec)) = b
  rw [hp]

/-- A double is the one of its bits. -/
theorem ofBits_toBits (x : Float) : Float.ofBits x.toBits = x := by
  obtain ⟨⟨b, hb⟩⟩ := x
  apply eq_of_toBits_eq
  change UInt64.ofBitVec (pack Format.binary64
    (Float.Model.UnpackedFloat.unpack Format.binary64 b.toBitVec)) = b
  by_cases h : exponentField b.toBitVec = -1#_ → fractionField b.toBitVec = 0#_
  · rw [pack_unpack _ h]
  · have he : exponentField b.toBitVec = -1#_ := by
      by_contra he
      exact h fun he' => absurd he' he
    have hf : fractionField b.toBitVec ≠ 0#_ := fun hf => h fun _ => hf
    have hnan := hb.eq_packedNaN he hf
    unfold Float.Model.UnpackedFloat.unpack
    dsimp only
    rw [if_pos he, if_neg hf]
    exact UInt64.toBitVec_inj.1 hnan.symm

/-! ## Sign and magnitude -/

section
variable {negative : Bool} {bits : ℕ}

theorem toNat_toBits_ofMagnitude (h : bits ≤ infinityBits) :
    (ofMagnitude negative bits).toBits.toNat = bits + if negative then signBit else 0 := by
  have hlt : bits + (if negative then signBit else 0) < 2 ^ 64 := by
    simp only [infinityBits, unitBit_eq] at h
    rw [signBit_eq]
    split_ifs <;> omega
  have hn : (UInt64.ofNat (bits + if negative then signBit else 0)).toNat =
      bits + if negative then signBit else 0 := by
    rw [UInt64.toNat_ofNat']
    exact Nat.mod_eq_of_lt hlt
  rw [ofMagnitude, toBits_ofBits, hn]
  rw [hn]
  simp only [infinityBits, unitBit_eq, signBit_eq] at h ⊢
  split_ifs <;> omega

theorem isNegative_ofMagnitude (h : bits ≤ infinityBits) :
    isNegative (ofMagnitude negative bits) = negative := by
  rw [isNegative, toNat_toBits_ofMagnitude h]
  simp only [infinityBits, unitBit_eq, signBit_eq] at h ⊢
  cases negative
  · exact decide_eq_false (by simp; omega)
  · exact decide_eq_true (by simp)

theorem magnitudeBits_ofMagnitude (h : bits ≤ infinityBits) :
    magnitudeBits (ofMagnitude negative bits) = bits := by
  rw [magnitudeBits, toNat_toBits_ofMagnitude h]
  simp only [infinityBits, unitBit_eq, signBit_eq] at h ⊢
  split_ifs <;> omega

end

/-- A double is put together from its sign and its magnitude. -/
theorem ofMagnitude_magnitudeBits (x : Float) :
    ofMagnitude (isNegative x) (magnitudeBits x) = x := by
  have hlt : x.toBits.toNat < 2 ^ 64 := x.toBits.toNat_lt
  have hn : magnitudeBits x + (if isNegative x then signBit else 0) = x.toBits.toNat := by
    simp only [magnitudeBits, isNegative, signBit_eq]
    by_cases h : 2 ^ 63 ≤ x.toBits.toNat
    · simp only [h, decide_true, if_true]
      omega
    · simp only [h, decide_false, Bool.false_eq_true, if_false]
      omega
  rw [ofMagnitude, hn, UInt64.ofNat_toNat, ofBits_toBits]

theorem isFinite_iff {x : Float} : isFinite x = true ↔ magnitudeBits x < infinityBits := by
  simp [isFinite]

/-! ## Negation -/

/-- With the other sign bit, 64 bits stand for the negative of what they stood for. -/
theorem unpack_flip {b c : BitVec 64} (h : c.toNat = (b.toNat + 2 ^ 63) % 2 ^ 64) :
    unpack Format.binary64 c = (unpack Format.binary64 b).neg := by
  have hexponent : exponentField c = exponentField b := by
    apply BitVec.eq_of_toNat_eq
    rw [toNat_exponentField, toNat_exponentField, h]
    omega
  have hfraction : fractionField c = fractionField b := by
    apply BitVec.eq_of_toNat_eq
    rw [toNat_fractionField, toNat_fractionField, h]
    omega
  have hsign : Sign.ofBitVec (@unpackSign Format.binary64 c) =
      -Sign.ofBitVec (@unpackSign Format.binary64 b) := by
    rw [unpackSign_eq, unpackSign_eq, h]
    have hlt : b.toNat < 2 ^ 64 := b.isLt
    rcases Nat.lt_or_ge b.toNat (2 ^ 63) with hb | hb
    · have hzero : b.toNat / 2 ^ 63 = 0 := by omega
      have hone : (b.toNat + 2 ^ 63) % 2 ^ 64 / 2 ^ 63 = 1 := by omega
      rw [hzero, hone]
      rfl
    · have hone : b.toNat / 2 ^ 63 = 1 := by omega
      have hzero : (b.toNat + 2 ^ 63) % 2 ^ 64 / 2 ^ 63 = 0 := by omega
      rw [hone, hzero]
      rfl
  unfold unpack
  simp only [exponentField, fractionField] at hexponent hfraction
  simp only [hexponent, hfraction, hsign]
  split_ifs <;> rfl

theorem abs_eq_self {x : Float} (h : isNegative x = false) : abs x = x := by
  have hx := ofMagnitude_magnitudeBits x
  rwa [h] at hx

/-- The double with the other sign bit is the negative. -/
theorem neg_eq_of_toBits {x y : Float}
    (h : y.toBits.toNat = (x.toBits.toNat + 2 ^ 63) % 2 ^ 64) : -x = y := by
  have hflip : unpack Format.binary64 y.toBits.toBitVec =
      (unpack Format.binary64 x.toBits.toBitVec).neg := unpack_flip h
  rw [← ofBits_toBits y]
  apply eq_of_toBits_eq
  change UInt64.ofBitVec (pack Format.binary64 (unpack Format.binary64 x.toBits.toBitVec).neg) =
    UInt64.ofBitVec (pack Format.binary64 (unpack Format.binary64 y.toBits.toBitVec))
  rw [hflip]

theorem neg_ofMagnitude {negative : Bool} {bits : ℕ} (h : bits ≤ infinityBits) :
    -ofMagnitude negative bits = ofMagnitude (!negative) bits := by
  apply neg_eq_of_toBits
  rw [toNat_toBits_ofMagnitude h, toNat_toBits_ofMagnitude h]
  simp only [infinityBits, unitBit_eq, signBit_eq] at h ⊢
  cases negative <;> simp <;> omega

end Rulebook.Number

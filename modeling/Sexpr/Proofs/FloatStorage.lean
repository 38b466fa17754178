import Mathlib
import Sexpr.Binary64

/-!
# How a float is stored

A float is its bit pattern, and there are two readings of it: the one in
`Binary64.ofFloat`, which this library computes with, and the unpacked number
that the operations on floats are defined by. They say the same (`ofFloat_eq`).

An operation puts its result back into a bit pattern. Nothing is lost by that as
long as the significand has 53 bits, or fewer at the least exponent; this is what
`Canonical` says, and what is stored is always so. Only the exponent may be too
great, and then the number that is found stored is infinite (`unpack_pack`). The
other way round nothing is lost at all, because there is one bit pattern only for
what is no number (`pack_unpack`).
-/

namespace Sexpr

open Float.Model Float.Model.UnpackedFloat

namespace Binary64

/-! ## Fields of the bit pattern -/

theorem toNat_unpackMantissa (b : BitVec 64) :
    (@unpackMantissa Format.binary64 b).toNat = b.toNat % 2 ^ 52 := by
  simp [unpackMantissa]

theorem toNat_unpackExponent (b : BitVec 64) :
    (@unpackExponent Format.binary64 b).toNat = b.toNat / 2 ^ 52 % 2 ^ 11 := by
  simp [unpackExponent, Nat.shiftRight_eq_div_pow]

theorem toNat_unpackSign (b : BitVec 64) :
    (@unpackSign Format.binary64 b).toNat = b.toNat / 2 ^ 63 := by
  have hlt : b.toNat < 2 ^ 64 := b.isLt
  simp [unpackSign, Nat.shiftRight_eq_div_pow]
  omega

/-- Whether a sign is the negative one. -/
def isNegative : Sign → Bool
  | .negative => true
  | .positive => false

/-- What is stored in a model. -/
def ofUnpacked : UnpackedFloat → Binary64
  | .infinity sign => infinite (isNegative sign)
  | .notANumber => nan
  | .zero sign => finite (isNegative sign) 0 leastExponent
  | .finite sign significand exponent _ => finite (isNegative sign) significand exponent

theorem isNegative_ofBitVec (b : BitVec 1) : isNegative (Sign.ofBitVec b) = (b.toNat == 1) := by
  rcases (by have := b.isLt; omega : b.toNat = 0 ∨ b.toNat = 1) with h | h
  · obtain rfl : b = 0#1 := BitVec.eq_of_toNat_eq h
    rfl
  · obtain rfl : b = 1#1 := BitVec.eq_of_toNat_eq h
    rfl

theorem toNat_append_one (b : BitVec 52) : (1#1 ++ b).toNat = leadingBit + b.toNat := by
  rw [BitVec.toNat_append, ← Nat.shiftLeft_add_eq_or_of_lt b.isLt]
  rfl

theorem ofFloat_eq (x : Float) : ofFloat x = ofUnpacked x.toModel.unpack := by
  have hm : x.toBits.toNat % leadingBit =
      (@unpackMantissa Format.binary64 x.toBits.toBitVec).toNat :=
    (toNat_unpackMantissa _).symm
  have he : x.toBits.toNat / leadingBit % 0x800 =
      (@unpackExponent Format.binary64 x.toBits.toBitVec).toNat :=
    (toNat_unpackExponent _).symm
  have hs : (x.toBits.toNat / (leadingBit * 0x800) == 1) =
      isNegative (Sign.ofBitVec (@unpackSign Format.binary64 x.toBits.toBitVec)) := by
    rw [isNegative_ofBitVec, toNat_unpackSign]
    rfl
  change _ = ofUnpacked (UnpackedFloat.unpack Format.binary64 x.toBits.toBitVec)
  simp only [ofFloat, hm, he, hs, UnpackedFloat.unpack]
  by_cases hall : @unpackExponent Format.binary64 x.toBits.toBitVec = -1#11
  · simp only [hall, if_true]
    by_cases hzero : @unpackMantissa Format.binary64 x.toBits.toBitVec = 0#52
    · simp [hzero, ofUnpacked]
    · rw [if_neg hzero, ofUnpacked]
      exact if_neg (mt BitVec.eq_of_toNat_eq hzero)
  · rw [if_neg hall]
    refine (if_neg (mt BitVec.eq_of_toNat_eq hall)).trans ?_
    by_cases hnone : @unpackExponent Format.binary64 x.toBits.toBitVec = 0#11
    · simp only [hnone, if_true]
      by_cases hzero : @unpackMantissa Format.binary64 x.toBits.toBitVec = 0#52
      · simp [hzero, ofUnpacked]
      · rw [dif_neg hzero]
        rfl
    · rw [if_neg hnone, ofUnpacked, toNat_append_one]
      exact if_neg (mt BitVec.eq_of_toNat_eq hnone)

/-! ## Canonical form -/

/-- A finite number is stored with 53 bits, unless its exponent is the least one. -/
def Canonical : UnpackedFloat → Prop
  | .finite _ significand exponent _ =>
      significand < 2 ^ 53 ∧ -1074 ≤ exponent ∧ (2 ^ 52 ≤ significand ∨ exponent = -1074)
  | _ => True

/-- What is left of a number after it has been stored: those of too great an exponent
become infinite. -/
def stored : UnpackedFloat → UnpackedFloat
  | .finite sign significand exponent h =>
      if 972 ≤ exponent then .infinity sign else .finite sign significand exponent h
  | other => other

theorem canonical_unpack (x : Float.Model) : Canonical x.unpack := by
  have hm : (@unpackMantissa Format.binary64 x.toBits.toBitVec).toNat < 2 ^ 52 :=
    (@unpackMantissa Format.binary64 x.toBits.toBitVec).isLt
  rw [Float.Model.unpack, UnpackedFloat.unpack]
  dsimp only
  split
  · split <;> trivial
  · split
    · split
      · trivial
      · next hnone _ =>
          rw [hnone]
          exact ⟨by omega, by decide, .inr (by decide)⟩
    · next hsome =>
        have hpos := mt BitVec.eq_of_toNat_eq hsome
        change ¬ _ = 0 at hpos
        refine ⟨?_, ?_, .inl ?_⟩
        · rw [toNat_append_one]
          simp only [leadingBit]
          omega
        · simp only [Format.exponentBias]
          omega
        · rw [toNat_append_one]
          exact Nat.le_add_right _ _

theorem ofNat_ne {width n : ℕ} {b : BitVec width} (hn : n < 2 ^ width) (h : n ≠ b.toNat) :
    BitVec.ofNat width n ≠ b := by
  rintro rfl
  rw [BitVec.toNat_ofNat, Nat.mod_eq_of_lt hn] at h
  exact h rfl

/-- Taking apart three fields that were put together for a number of 53 bits. -/
theorem unpack_normal {sign : Sign} {biased m : ℕ} (hbiased : 0 < biased ∧ biased < 2047)
    (hm : 2 ^ 52 ≤ m ∧ m < 2 ^ 53) :
    UnpackedFloat.unpack Format.binary64
        (packComponents Format.binary64 sign (BitVec.ofNat 11 biased) (BitVec.ofNat 52 m)) =
      .finite sign m (biased - 1075) (by omega) := by
  have hexponent : (BitVec.ofNat 11 biased).toNat = biased :=
    Nat.mod_eq_of_lt (by omega)
  have hmantissa : (1#1 ++ BitVec.ofNat 52 m).toNat = m := by
    rw [toNat_append_one, BitVec.toNat_ofNat, leadingBit]
    omega
  have hall : BitVec.ofNat 11 biased ≠ -1#11 :=
    ofNat_ne (by omega) (show biased ≠ 2047 by omega)
  have hnone : BitVec.ofNat 11 biased ≠ 0#11 :=
    ofNat_ne (by omega) (show biased ≠ 0 by omega)
  rw [UnpackedFloat.unpack]
  simp only [unpackMantissa_packComponents, unpackExponent_packComponents,
    unpackSign_packComponents, Sign.ofBitVec_toBitVec, if_neg hall, if_neg hnone, hmantissa,
    hexponent]
  rfl

theorem unpack_subnormal {sign : Sign} {m : ℕ} (hm : 0 < m ∧ m < 2 ^ 52) :
    UnpackedFloat.unpack Format.binary64
        (packComponents Format.binary64 sign 0#11 (BitVec.ofNat 52 m)) =
      .finite sign m (-1074) hm.1 := by
  have hmantissa : (BitVec.ofNat 52 m).toNat = m := Nat.mod_eq_of_lt hm.2
  have hsome : BitVec.ofNat 52 m ≠ 0#52 :=
    ofNat_ne hm.2 (show m ≠ 0 by omega)
  rw [UnpackedFloat.unpack]
  simp only [unpackMantissa_packComponents, unpackExponent_packComponents,
    unpackSign_packComponents, Sign.ofBitVec_toBitVec, dif_neg hsome, hmantissa]
  rfl

theorem pack_normal {sign : Sign} {biased m : ℕ} {e : ℤ} (he : e = biased - 1075)
    (hbiased : 0 < biased ∧ biased < 2047) (hm : 2 ^ 52 ≤ m ∧ m < 2 ^ 53) (hpos : 0 < m) :
    UnpackedFloat.pack Format.binary64 (.finite sign m e hpos) =
      packComponents Format.binary64 sign (BitVec.ofNat 11 biased) (BitVec.ofNat 52 m) := by
  have htoNat : (e + Format.binary64.exponentBias +
      Format.binary64.mantissaBitsWithoutImplicit).toNat = biased := by
    simp only [Format.exponentBias]
    omega
  have hlog : m.log2 = 52 := (Nat.log2_eq_iff hpos.ne').2 hm
  rw [UnpackedFloat.pack, htoNat]
  refine (if_neg (show ¬ 2 ^ 11 ≤ biased + 1 by omega)).trans ?_
  exact if_pos (show m.log2 + 1 = 53 by omega)

theorem pack_subnormal {sign : Sign} {m : ℕ} (hm : m < 2 ^ 52) (hpos : 0 < m) :
    UnpackedFloat.pack Format.binary64 (.finite sign m (-1074) hpos) =
      packComponents Format.binary64 sign 0#11 (BitVec.ofNat 52 m) := by
  have hlog : m.log2 < 52 := (Nat.log2_lt hpos.ne').2 hm
  exact if_neg (show ¬ m.log2 + 1 = 53 by omega)

theorem unpack_pack {u : UnpackedFloat} (h : Canonical u) :
    (Float.Model.pack u).unpack = stored u := by
  change UnpackedFloat.unpack Format.binary64 (UnpackedFloat.pack Format.binary64 u) = stored u
  cases u with
  | notANumber => rfl
  | infinity sign => cases sign <;> rfl
  | zero sign => cases sign <;> rfl
  | finite sign m e hpos =>
      obtain ⟨hlt, hle, hcanonical⟩ := h
      obtain ⟨biased, hbiased⟩ : ∃ biased : ℕ, e = biased - 1075 :=
        ⟨(e + 1075).toNat, by omega⟩
      rw [stored]
      by_cases hgreat : 972 ≤ e
      · have htoNat : (e + Format.binary64.exponentBias +
            Format.binary64.mantissaBitsWithoutImplicit).toNat = biased := by
          simp only [Format.exponentBias]
          omega
        rw [if_pos hgreat, UnpackedFloat.pack, htoNat]
        refine (congrArg _ (if_pos (show 2 ^ 11 ≤ biased + 1 by omega))).trans ?_
        cases sign <;> rfl
      rw [if_neg hgreat]
      by_cases hfull : 2 ^ 52 ≤ m
      · rw [pack_normal hbiased ⟨by omega, by omega⟩ ⟨hfull, hlt⟩,
          unpack_normal ⟨by omega, by omega⟩ ⟨hfull, hlt⟩]
        congr 1
        exact hbiased.symm
      · obtain rfl : e = -1074 := hcanonical.resolve_left hfull
        rw [pack_subnormal (by omega), unpack_subnormal ⟨hpos, by omega⟩]

/-! ## Back into the bit pattern -/

theorem toBitVec_ofBitVec (b : BitVec 1) : (Sign.ofBitVec b).toBitVec = b := by
  rcases (by have := b.isLt; omega : b.toNat = 0 ∨ b.toNat = 1) with h | h
  · obtain rfl : b = 0#1 := BitVec.eq_of_toNat_eq h
    rfl
  · obtain rfl : b = 1#1 := BitVec.eq_of_toNat_eq h
    rfl

/-- Three fields that were taken apart, put together again. -/
theorem packComponents_unpack (b : BitVec 64) :
    packComponents Format.binary64 (Sign.ofBitVec (@unpackSign Format.binary64 b))
      (@unpackExponent Format.binary64 b) (@unpackMantissa Format.binary64 b) = b := by
  have hlt : b.toNat < 2 ^ 64 := b.isLt
  have hmantissa := toNat_unpackMantissa b
  have hexponent := toNat_unpackExponent b
  have hsign := toNat_unpackSign b
  apply BitVec.eq_of_toNat_eq
  rw [packComponents, toBitVec_ofBitVec, BitVec.toNat_append, BitVec.toNat_append,
    ← Nat.shiftLeft_add_eq_or_of_lt (BitVec.isLt _),
    ← Nat.shiftLeft_add_eq_or_of_lt (BitVec.isLt _), hmantissa, hexponent, hsign,
    Nat.shiftLeft_eq, Nat.shiftLeft_eq]
  dsimp only
  omega

/-- A float is stored in one way only. -/
theorem pack_unpack (x : Float.Model) : Float.Model.pack x.unpack = x := by
  obtain ⟨bits, hvalid⟩ := x
  have hm : (@unpackMantissa Format.binary64 bits.toBitVec).toNat < 2 ^ 52 :=
    (@unpackMantissa Format.binary64 bits.toBitVec).isLt
  have he : (@unpackExponent Format.binary64 bits.toBitVec).toNat < 2 ^ 11 :=
    (@unpackExponent Format.binary64 bits.toBitVec).isLt
  have hfields := packComponents_unpack bits.toBitVec
  have hbits : UnpackedFloat.pack Format.binary64
      (UnpackedFloat.unpack Format.binary64 bits.toBitVec) = bits.toBitVec := by
    rw [UnpackedFloat.unpack]
    dsimp only
    split
    · next hall =>
        split
        · next hzero =>
            rw [hall, hzero] at hfields
            exact hfields
        · next hsome => exact (hvalid.eq_packedNaN hall hsome).symm
    · next hfinite =>
        have hless := mt BitVec.eq_of_toNat_eq hfinite
        change ¬ _ = 2047 at hless
        split
        · next hnone =>
            rw [hnone] at hfields
            split
            · next hzero =>
                rw [hzero] at hfields
                exact hfields
            · next hsome =>
                rw [hnone]
                refine (pack_subnormal hm _).trans ?_
                rw [BitVec.ofNat_toNat, BitVec.setWidth_eq]
                exact hfields
        · next hsome =>
            have hpos := mt BitVec.eq_of_toNat_eq hsome
            change ¬ _ = 0 at hpos
            have hmantissa : BitVec.ofNat 52
                (1#1 ++ @unpackMantissa Format.binary64 bits.toBitVec).toNat =
                  @unpackMantissa Format.binary64 bits.toBitVec := by
              apply BitVec.eq_of_toNat_eq
              rw [toNat_append_one, BitVec.toNat_ofNat, leadingBit]
              omega
            refine (pack_normal rfl ⟨by omega, by omega⟩ ?_ _).trans ?_
            · rw [toNat_append_one, leadingBit]
              omega
            · rw [hmantissa, BitVec.ofNat_toNat, BitVec.setWidth_eq]
              exact hfields
  rw [Float.Model.unpack, Float.Model.pack]
  simp only [hbits]

end Binary64

end Sexpr

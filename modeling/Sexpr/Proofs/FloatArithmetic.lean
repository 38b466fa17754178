import Sexpr.Numeric.RunningTotal
import Sexpr.Proofs.FloatOperations
import Sexpr.Proofs.Truncation

/-!
# Arithmetic on floats

A float that has been computed either is the number it should be, or it is
infinite and that number is out of range. This is `Reads`, and it is what the
laws for whole floats are stated with: one for each operation, one for the
conversion of an integer, and one for the way back, which cuts off the fraction
and holds the result at the limits. On the way back it no longer matters whether
a float is out of range or infinite.
-/

namespace Sexpr

open Float.Model Float.Model.UnpackedFloat

namespace Binary64

/-! ## Floats -/

/-- A float taken apart. -/
def unpacked (x : Float) : UnpackedFloat :=
  x.toModel.unpack

/-- The least power of two that is out of range. -/
def limit : ℚ :=
  2 ^ (1024 : ℤ)

theorem limit_pos : 0 < limit := by
  rw [limit]
  positivity

theorem two_zpow_lt_limit {e : ℤ} (h : e < 1024) : 2 ^ e < limit :=
  zpow_lt_zpow_right₀ (by norm_num) h

theorem representable_limit : Representable limit :=
  representable_two_zpow (by norm_num)

theorem limit_le_of_full {m : ℕ} {e : ℤ} (hm : 2 ^ 52 ≤ m) (he : 972 ≤ e) :
    limit ≤ m * 2 ^ e := by
  have hm : (2 : ℚ) ^ (52 : ℤ) ≤ m := by exact_mod_cast hm
  have he : (2 : ℚ) ^ (972 : ℤ) ≤ 2 ^ e := zpow_le_zpow_right₀ (by norm_num) he
  calc limit = 2 ^ (52 : ℤ) * 2 ^ (972 : ℤ) := by
        rw [← zpow_add₀ (by norm_num)]
        rfl
    _ ≤ m * 2 ^ e := mul_le_mul hm he (by positivity) (by positivity)

theorem lt_limit_of_lt {m : ℕ} {e : ℤ} (hm : m < 2 ^ 53) (he : e < 972) :
    (m : ℚ) * 2 ^ e < limit := by
  have hm : (m : ℚ) < 2 ^ (53 : ℤ) := by exact_mod_cast hm
  have he : (2 : ℚ) ^ e ≤ 2 ^ (971 : ℤ) := zpow_le_zpow_right₀ (by norm_num) (by omega)
  calc (m : ℚ) * 2 ^ e < 2 ^ (53 : ℤ) * 2 ^ e := mul_lt_mul_of_pos_right hm (by positivity)
    _ ≤ 2 ^ (53 : ℤ) * 2 ^ (971 : ℤ) := mul_le_mul_of_nonneg_left he (by positivity)
    _ = limit := by
        rw [← zpow_add₀ (by norm_num)]
        rfl

/-- A float is a number, or that number is out of range and the float infinite. -/
def Reads (x : Float) (q : ℚ) : Prop :=
  Denotes (unpacked x) q ∧ |q| < limit ∨
    ∃ sign, unpacked x = .infinity sign ∧ limit ≤ unit sign * q

theorem Reads.denotes {x : Float} {q : ℚ} (h : Reads x q) (hq : |q| < limit) :
    Denotes (unpacked x) q := by
  rcases h with ⟨h, -⟩ | ⟨sign, -, hout⟩
  · exact h
  · exact absurd (hout.trans (unit_mul_le_abs sign q)) (not_le.2 hq)

/-- Storing a number keeps it, or finds it out of range. -/
theorem reads_pack {u : UnpackedFloat} {q : ℚ} (h : Canonical u ∧ Denotes u q) :
    Reads (.ofModel (.pack u)) q := by
  obtain ⟨hu, hq⟩ := h
  have hunpacked : unpacked (.ofModel (.pack u)) = stored u := unpack_pack hu
  rw [Reads, hunpacked]
  cases u with
  | infinity | notANumber => exact hq.elim
  | zero =>
      obtain rfl : q = 0 := hq
      exact .inl ⟨rfl, by rw [abs_zero]; exact limit_pos⟩
  | finite sign m e hpos =>
      obtain rfl : q = unit sign * (m * 2 ^ e) := hq
      obtain ⟨hlt, -, hfull⟩ := hu
      rw [stored]
      by_cases hgreat : 972 ≤ e
      · rw [if_pos hgreat]
        refine .inr ⟨sign, rfl, ?_⟩
        rw [← mul_assoc, unit_mul_self, one_mul]
        exact limit_le_of_full (hfull.resolve_right (by omega)) hgreat
      · rw [if_neg hgreat]
        refine .inl ⟨rfl, ?_⟩
        rw [abs_mul, abs_unit, one_mul, abs_of_pos (by positivity)]
        exact lt_limit_of_lt hlt (by omega)

section

variable {x y : Float} {p q : ℚ}

theorem reads_add (hx : Denotes (unpacked x) p) (hy : Denotes (unpacked y) q) :
    Reads (x + y) (nearest (p + q)) :=
  reads_pack (add_spec (canonical_unpack _) (canonical_unpack _) hx hy)

theorem reads_mul (hx : Denotes (unpacked x) p) (hy : Denotes (unpacked y) q) :
    Reads (x * y) (nearest (p * q)) :=
  reads_pack (mul_spec (canonical_unpack _) (canonical_unpack _) hx hy)

theorem reads_div (hx : Denotes (unpacked x) p) (hy : Denotes (unpacked y) q) (hq : q ≠ 0) :
    Reads (x / y) (nearest (p / q)) :=
  reads_pack (div_spec hx hy hq)

theorem reads_neg (h : Reads x p) : Reads (-x) (-p) := by
  rcases h with ⟨hx, -⟩ | ⟨sign, hx, hout⟩
  · exact reads_pack (neg_spec (canonical_unpack _) hx)
  · have hneg : unpacked (-x) = (Float.Model.pack (unpacked x).neg).unpack := rfl
    rw [hx] at hneg
    refine .inr ⟨-sign, hneg.trans (unpack_pack trivial), ?_⟩
    rw [unit_neg, neg_mul_neg]
    exact hout

end

/-! ## Integers as floats -/

theorem denotes_one : Denotes (unpacked (Float.ofBits 0x3FF0000000000000)) 1 := by
  have hbits : unpacked (Float.ofBits 0x3FF0000000000000) =
      .finite .positive (2 ^ 52) (-52) (by norm_num) := rfl
  rw [hbits, Denotes, unit]
  norm_num

theorem reads_toFloat {n : ℕ} (h : n < 2 ^ 53) : Reads n.toUInt64.toFloat n := by
  have hword : n.toUInt64.toNat = n := UInt64.toNat_ofNat_of_lt' (by
    have : UInt64.size = 2 ^ 64 := rfl
    omega)
  have hrepresentable : Representable n := by
    exact_mod_cast representable_intCast (k := n) (by
      rw [abs_of_nonneg (by positivity)]
      omega)
  have hfloat : Reads n.toUInt64.toFloat (nearest ((n.toUInt64.toNat : ℤ) * 2 ^ (0 : ℤ))) :=
    reads_pack (normalize_spec _ 0 .positive)
  rwa [hword, zpow_zero, mul_one, Int.cast_natCast, hrepresentable] at hfloat

/-- An integer in scientific notation is given so many bits that none of its own
are lost before it is rounded. -/
theorem ofScientific_spec {n : ℕ} (h : 0 < n) :
    Canonical (UnpackedFloat.ofScientific Format.binary64 n 0) ∧
      Denotes (UnpackedFloat.ofScientific Format.binary64 n 0) (nearest n) := by
  have hproduct : UnpackedFloat.ofScientific Format.binary64 n 0 =
      roundWithAccuracy Format.binary64 .positive (n <<< 53 * 10 ^ 0) (-53 + 0) .exact := by
    rw [UnpackedFloat.ofScientific, dif_neg h.ne', if_neg (by decide),
      if_neg (by simp only; omega), if_pos le_rfl]
    rfl
  have hvalue : ((n <<< 53 * 10 ^ 0 : ℕ) : ℚ) * 2 ^ (-53 + 0 : ℤ) = n := by
    have h := cast_shiftLeft n 53 0
    rw [zpow_zero, mul_one] at h
    rw [pow_zero, mul_one, show (-53 + 0 : ℤ) = 0 - (53 : ℕ) from rfl]
    exact h
  have htarget : (-53 + 0 : ℤ) ≤
      max (((n <<< 53 * 10 ^ 0).log2 : ℤ) + (-53 + 0) - 52) (-1074) := by
    rw [pow_zero, mul_one, log2_shiftLeft h 53]
    push_cast
    omega
  have hextends : Extends (.ofMantissaAndAccuracy (n <<< 53 * 10 ^ 0) .exact)
      ((n : ℚ) / 2 ^ (-53 + 0 : ℤ)) := by
    rw [← hvalue]
    exact extends_scaled _ _
  rw [hproduct, ← one_mul (nearest n)]
  exact roundWithAccuracy_spec (by positivity) htarget hextends

/-- Small integers are converted as they are, and great ones by way of scientific
notation. -/
theorem reads_ofNat (n : ℕ) : Reads (Float.ofNat n) (nearest n) := by
  change Reads (Float.ofScientific n false 0) (nearest n)
  rw [Float.ofScientific]
  split
  · next hsmall =>
      have hfits : |(n : ℚ)| < limit := by
        have hlt := lt_limit_of_lt (e := 0) hsmall.1 (by norm_num)
        rw [zpow_zero, mul_one] at hlt
        rw [Nat.abs_cast]
        exact hlt
      have h := reads_mul ((reads_toFloat hsmall.1).denotes hfits) denotes_one
      rw [mul_one] at h
      exact h
  · next hlarge =>
      have hpos : 0 < n := by omega
      exact reads_pack (u := UnpackedFloat.ofScientific Format.binary64 n 0)
        (ofScientific_spec hpos)

theorem reads_ofInt (n : ℤ) : Reads (Float.ofInt n) (nearest n) := by
  cases n with
  | ofNat n => exact reads_ofNat n
  | negSucc n =>
      have h := reads_neg (reads_ofNat (n + 1))
      rw [← nearest_neg] at h
      rw [Int.cast_negSucc]
      exact h

theorem abs_nearest_toInt_le (n : Int64) : |nearest n.toInt| ≤ 2 ^ 63 := by
  have hlower := n.le_toInt
  have hupper := n.toInt_lt
  have hrepresentable : Representable (2 ^ 63) := by
    exact_mod_cast representable_two_zpow (e := 63) (by norm_num)
  rw [abs_nearest]
  refine hrepresentable.nearest_le ?_
  rw [abs_le]
  constructor
  · exact_mod_cast hlower
  · exact_mod_cast hupper.le

theorem abs_nearest_toInt_lt_limit (n : Int64) : |nearest n.toInt| < limit := by
  refine (abs_nearest_toInt_le n).trans_lt ?_
  have := two_zpow_lt_limit (e := 63) (by norm_num)
  exact_mod_cast this

/-- An integer takes part in arithmetic as the nearest number. -/
theorem denotes_floatOfInt (n : Int64) : Denotes (unpacked (floatOfInt n)) (nearest n.toInt) :=
  (reads_ofInt n.toInt).denotes (abs_nearest_toInt_lt_limit n)

/-! ## Back to an integer -/

theorem saturate_of_gt {n : ℤ} (h : 2 ^ 63 ≤ n) : saturate n = Int64.maxValue := by
  have hmin : Int64.minValue.toInt = -2 ^ 63 := rfl
  have hmax : Int64.maxValue.toInt = 2 ^ 63 - 1 := rfl
  rw [saturate, if_neg (by omega), if_pos (by omega)]

theorem saturate_of_lt {n : ℤ} (h : n < -2 ^ 63) : saturate n = Int64.minValue := by
  have hmin : Int64.minValue.toInt = -2 ^ 63 := rfl
  rw [saturate, if_pos (by omega)]

theorem toInt_saturate {n : ℤ} (hlower : -2 ^ 63 ≤ n) (hupper : n < 2 ^ 63) :
    (saturate n).toInt = n := by
  have hmin : Int64.minValue.toInt = -2 ^ 63 := rfl
  have hmax : Int64.maxValue.toInt = 2 ^ 63 - 1 := rfl
  rw [saturate, if_neg (by omega), if_neg (by omega)]
  exact Int64.toInt_ofInt_of_le hlower hupper

theorem wholePart_fst (m : ℕ) (e : ℤ) : ((wholePart m e).1 : ℤ) = ⌊(m : ℚ) * 2 ^ e⌋ := by
  cases e with
  | ofNat k =>
      rw [wholePart, Int.ofNat_eq_natCast, zpow_natCast]
      exact_mod_cast (Int.floor_natCast (m * 2 ^ k)).symm
  | negSucc k =>
      rw [wholePart, zpow_negSucc, ← div_eq_mul_inv]
      exact_mod_cast (Rat.floor_natCast_div_natCast m (2 ^ (k + 1))).symm

theorem roundFinite_towardZero (sign : Sign) (m : ℕ) (e : ℤ) :
    roundFinite .towardZero (isNegative sign) m e = truncate (unit sign * (m * 2 ^ e)) := by
  have hwhole : truncate (m * 2 ^ e) = (wholePart m e).1 := by
    rw [truncate, if_pos (by positivity), wholePart_fst]
  cases sign with
  | negative =>
      rw [unit, neg_one_mul, truncate_neg, hwhole]
      rfl
  | positive =>
      rw [unit, one_mul, hwhole]
      rfl

/-- The way back from a float. Where it is infinite, the number was out of range
of the integers long before. -/
theorem toInt64_towardZero {x : Float} {q : ℚ} (h : Reads x q) :
    (ofFloat x).toInt64 .towardZero = saturate (truncate q) := by
  rw [ofFloat_eq]
  change (ofUnpacked (unpacked x)).toInt64 .towardZero = _
  rcases h with ⟨h, -⟩ | ⟨sign, hx, hout⟩
  · generalize unpacked x = u at h ⊢
    cases u with
    | infinity | notANumber => exact h.elim
    | zero sign =>
        obtain rfl : q = 0 := h
        have h := roundFinite_towardZero sign 0 leastExponent
        rw [Nat.cast_zero, zero_mul, mul_zero] at h
        exact congrArg saturate h
    | finite sign m e =>
        obtain rfl : q = unit sign * (m * 2 ^ e) := h
        exact congrArg saturate (roundFinite_towardZero sign m e)
  · rw [hx]
    have hlarge : ((2 ^ 64 : ℤ) : ℚ) < limit := by
      have := two_zpow_lt_limit (e := 64) (by norm_num)
      exact_mod_cast this
    cases sign with
    | positive =>
        rw [unit, one_mul] at hout
        have := truncate_mono (hlarge.le.trans hout)
        rw [truncate_intCast] at this
        exact (saturate_of_gt (by omega)).symm
    | negative =>
        rw [unit, neg_one_mul] at hout
        have := truncate_mono (hlarge.le.trans hout)
        rw [truncate_intCast, truncate_neg] at this
        exact (saturate_of_lt (by omega)).symm

/-! ## Zero -/

theorem Denotes.ne_zero {sign : Sign} {m : ℕ} {e : ℤ} {hm : 0 < m} {q : ℚ}
    (h : Denotes (.finite sign m e hm) q) : q ≠ 0 := by
  obtain rfl : q = unit sign * (m * 2 ^ e) := h
  have := unit_ne_zero sign
  positivity

theorem beq_zero {x : Float} {q : ℚ} (h : Reads x q) : (x == 0.0) = decide (q = 0) := by
  change (unpacked x).beq (.zero .positive) = _
  rcases h with ⟨h, -⟩ | ⟨sign, hx, hout⟩
  · generalize unpacked x = u at h ⊢
    cases u with
    | infinity | notANumber => exact h.elim
    | zero sign =>
        obtain rfl : q = 0 := h
        rfl
    | finite sign m e hm =>
        rw [decide_eq_false h.ne_zero]
        cases sign <;> rfl
  · have hq : q ≠ 0 := by
      rintro rfl
      rw [mul_zero] at hout
      exact absurd hout (not_le.2 limit_pos)
    rw [hx, decide_eq_false hq]
    cases sign <;> rfl

/-! ## Products without bound

A product of many integers may go out of range, and it stays there unless one of
them is zero. Then it is no number any more, and its integer is zero as it
should be. -/

/-- A float is a number or infinite in its place, or no number in the place of
zero. -/
def Tracks (x : Float) (q : ℚ) : Prop :=
  Reads x q ∨ unpacked x = .notANumber ∧ q = 0

theorem unpacked_mul (x y : Float) :
    unpacked (x * y) =
      (Float.Model.pack (UnpackedFloat.mul Format.binary64 (unpacked x) (unpacked y))).unpack :=
  rfl

theorem unit_mul_of_denotes {sign : Sign} {m : ℕ} {e : ℤ} {hm : 0 < m} {q : ℚ}
    (h : Denotes (.finite sign m e hm) q) : unit sign * q = |q| := by
  obtain rfl : q = unit sign * (m * 2 ^ e) := h
  rw [← mul_assoc, unit_mul_self, abs_mul, abs_unit, abs_of_pos (by positivity)]

theorem Tracks.mul {x y : Float} {p q : ℚ} (hx : Tracks x p) (hy : Denotes (unpacked y) q)
    (hq : q = 0 ∨ 1 ≤ |q|) : Tracks (x * y) (nearest (p * q)) := by
  rcases hx with (⟨hx, -⟩ | ⟨sign, hx, hout⟩) | ⟨hx, rfl⟩
  · exact .inl (reads_mul hx hy)
  · have hproduct := unpacked_mul x y
    rw [hx] at hproduct
    generalize unpacked y = v at hy hproduct
    cases v with
    | infinity | notANumber => exact hy.elim
    | zero =>
        obtain rfl : q = 0 := hy
        refine .inr ⟨hproduct.trans (unpack_pack trivial), ?_⟩
        rw [mul_zero, nearest_zero]
    | finite sign' m e hm =>
        have hunit := unit_mul_of_denotes hy
        have hone : 1 ≤ |q| := hq.resolve_left hy.ne_zero
        refine .inl (.inr ⟨sign * sign', hproduct.trans (unpack_pack trivial), ?_⟩)
        rw [← nearest_unit_mul, unit_mul, mul_mul_mul_comm, hunit]
        refine representable_limit.le_nearest ?_
        nlinarith [limit_pos]
  · have hproduct := unpacked_mul x y
    rw [hx] at hproduct
    refine .inr ⟨hproduct.trans (unpack_pack trivial), ?_⟩
    rw [zero_mul, nearest_zero]

theorem Tracks.toInt64_towardZero {x : Float} {q : ℚ} (h : Tracks x q) :
    (ofFloat x).toInt64 .towardZero = saturate (truncate q) := by
  rcases h with h | ⟨hx, rfl⟩
  · exact Binary64.toInt64_towardZero h
  · rw [ofFloat_eq]
    change (ofUnpacked (unpacked x)).toInt64 .towardZero = _
    rw [hx]
    exact congrArg saturate (truncate_intCast 0).symm

theorem Tracks.eq_zero {x : Float} {q : ℚ} (h : Tracks x q) (hx : (x == 0.0) = true) : q = 0 := by
  rcases h with h | ⟨-, rfl⟩
  · rw [beq_zero h] at hx
    exact of_decide_eq_true hx
  · rfl

/-! ## Quotients

An infinite divisor is the other way to a result of zero: so great a divisor
leaves nothing before the point. -/

theorem denotes_div_infinite {x y : Float} {p : ℚ} {sign : Sign} (hx : Denotes (unpacked x) p)
    (hy : unpacked y = .infinity sign) : Denotes (unpacked (x / y)) 0 := by
  have hquotient : unpacked (x / y) = (Float.Model.pack
      (UnpackedFloat.div Format.binary64 (unpacked x) (unpacked y))).unpack := rfl
  rw [hy] at hquotient
  generalize unpacked x = u at hx hquotient
  cases u with
  | infinity | notANumber => exact hx.elim
  | zero | finite =>
      rw [hquotient.trans (unpack_pack trivial)]
      rfl

theorem toInt64_div {x y : Float} {p q : ℚ} (hx : Denotes (unpacked x) p) (hp : |p| ≤ 2 ^ 63)
    (hy : Reads y q) (hq : q ≠ 0) :
    (ofFloat (x / y)).toInt64 .towardZero = saturate (truncate (nearest (p / q))) := by
  rcases hy with ⟨hy, -⟩ | ⟨sign, hy, hout⟩
  · exact toInt64_towardZero (reads_div hx hy hq)
  · have hzero : Reads (x / y) 0 :=
      .inl ⟨denotes_div_infinite hx hy, by rw [abs_zero]; exact limit_pos⟩
    have hlarge : (2 : ℚ) ^ 64 < |q| := by
      have hlimit := two_zpow_lt_limit (e := 64) (by norm_num)
      calc (2 : ℚ) ^ 64 < limit := by exact_mod_cast hlimit
        _ ≤ unit sign * q := hout
        _ ≤ |q| := unit_mul_le_abs sign q
    have hsmall : |nearest (p / q)| < 1 := by
      rw [abs_nearest]
      refine (representable_half.nearest_le ?_).trans_lt (by norm_num)
      rw [abs_div, div_le_div_iff₀ (abs_pos.2 hq) (by norm_num)]
      norm_num at hp hlarge ⊢
      linarith
    rw [toInt64_towardZero hzero, truncate_eq_zero hsmall]
    exact congrArg saturate (truncate_intCast 0)

end Binary64

end Sexpr

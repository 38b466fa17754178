import Sexpr.Proofs.FloatStorage
import Sexpr.Proofs.Rounding

/-!
# Operations on floats round to the nearest number

An operation on floats works out as many bits of its result as it needs, and of
the bits behind them it remembers two: the next one, and whether any of the
others is set. That is enough to round by, and the rounded result is `nearest`
of the exact one. The argument is in three parts. The two bits survive a shift
(`Extends.shiftRight`); rounding by them is rounding to the nearest integer
(`Extends.isNearest`); and the exponent that the number is shifted to is the
`quantum` of the exact result. A result that has been rounded up to a power of
two is shifted once more, which loses nothing.
-/

namespace Sexpr

open Float.Model Float.Model.UnpackedFloat

namespace Binary64

/-! ## Two bits behind the last -/

/-- A mantissa with its two bits stands for `x`: behind the first bit there is a
rest, and the second bit says whether it is zero. -/
def Extends (em : ExtendedMantissa) (x : ℚ) : Prop :=
  ∃ rest : ℚ, x = em.mantissa + (if em.roundBit then 1 / 2 else 0) + rest ∧
    0 ≤ rest ∧ rest < 1 / 2 ∧ (em.stickyBit = false ↔ rest = 0)

theorem extends_exact (m : ℕ) : Extends (.ofMantissaAndAccuracy m .exact) m :=
  ⟨0, by simp [ExtendedMantissa.ofMantissaAndAccuracy]⟩

/-- What is left of a number of some exponent once that is divided off. -/
theorem extends_scaled (m : ℕ) (e : ℤ) :
    Extends (.ofMantissaAndAccuracy m .exact) (m * 2 ^ e / 2 ^ e) := by
  rw [mul_div_cancel_right₀ _ (by positivity)]
  exact extends_exact m

theorem Extends.shiftRightOne {em : ExtendedMantissa} {x : ℚ} (h : Extends em x) :
    Extends em.shiftRightOne (x / 2) := by
  obtain ⟨m, round, sticky⟩ := em
  obtain ⟨rest, hx, hnonneg, hlt, hsticky⟩ := h
  have hm : (m : ℚ) = 2 * (m / 2 : ℕ) + (m % 2 : ℕ) := by exact_mod_cast (Nat.div_add_mod m 2).symm
  have hbit : (if m % 2 != 0 then 1 / 2 else 0 : ℚ) = (m % 2 : ℕ) / 2 := by
    rcases Nat.mod_two_eq_zero_or_one m with hmod | hmod <;> simp [hmod]
  refine ⟨((if round then 1 / 2 else 0) + rest) / 2, ?_, ?_, ?_, ?_⟩
  · simp only [ExtendedMantissa.shiftRightOne]
    dsimp only at hx
    linarith
  · split <;> linarith
  · split <;> linarith
  · cases round with
    | false => simpa [ExtendedMantissa.shiftRightOne] using hsticky
    | true =>
        simp only [ExtendedMantissa.shiftRightOne, Bool.true_or, if_true, Bool.true_eq_false,
          false_iff]
        intro hzero
        linarith

theorem Extends.shiftRight {em : ExtendedMantissa} {x : ℚ} (h : Extends em x) (n : ℕ) :
    Extends (em >>> n) (x / 2 ^ n) := by
  induction n with
  | zero =>
      rw [pow_zero, div_one]
      exact h
  | succ n ih =>
      rw [pow_succ, ← div_div]
      exact ih.shiftRightOne

theorem Extends.le {em : ExtendedMantissa} {x : ℚ} (h : Extends em x) : (em.mantissa : ℚ) ≤ x := by
  obtain ⟨rest, hx, hnonneg, -, -⟩ := h
  split at hx <;> linarith

theorem Extends.lt {em : ExtendedMantissa} {x : ℚ} (h : Extends em x) : x < em.mantissa + 1 := by
  obtain ⟨rest, hx, -, hlt, -⟩ := h
  split at hx <;> linarith

theorem Extends.isNearest {em : ExtendedMantissa} {x : ℚ} (h : Extends em x) :
    IsNearest em.roundedMantissa x := by
  obtain ⟨m, round, sticky⟩ := em
  obtain ⟨rest, rfl, hnonneg, hlt, hsticky⟩ := h
  cases round with
  | false =>
      -- Less than a half is left over, and the mantissa stays as it is.
      have hround : ExtendedMantissa.roundedMantissa ⟨m, false, sticky⟩ = m := by
        cases sticky <;> rfl
      left
      rw [hround, abs_lt]
      constructor <;> push_cast <;> simp <;> linarith
  | true =>
      cases sticky with
      | false =>
          obtain rfl : rest = 0 := hsticky.1 rfl
          have hround : ExtendedMantissa.roundedMantissa ⟨m, true, false⟩ = m + m % 2 := rfl
          right
          rw [hround]
          rcases Nat.mod_two_eq_zero_or_one m with hmod | hmod
          · exact ⟨by simp [hmod], by rw [hmod]; exact_mod_cast Nat.even_iff.2 hmod⟩
          · refine ⟨?_, ?_⟩
            · rw [hmod, abs_eq (by norm_num)]
              right
              push_cast
              simp
              linarith
            · rw [hmod]
              exact_mod_cast Nat.even_iff.2 (by omega)
      | true =>
          have hpos : 0 < rest := by
            refine lt_of_le_of_ne hnonneg fun hzero => ?_
            exact absurd (hsticky.2 hzero.symm) (by simp)
          have hround : ExtendedMantissa.roundedMantissa ⟨m, true, true⟩ = m + 1 := rfl
          left
          rw [hround, abs_lt]
          constructor <;> push_cast <;> simp <;> linarith

/-! ## The exponent of the result -/

/-- The exponent that a number is shifted to, and no number has a lesser one. -/
theorem targetExponent_eq (m : ℕ) (e : ℤ) :
    Format.binary64.targetExponent (totalExponent m e) = max (m.log2 + e - 52) (-1074) := by
  simp only [Format.targetExponent, totalExponent, Format.mantissaBits, Format.minExponent]
  norm_num
  omega

/-- It is the quantum of every number with this mantissa in front. -/
theorem quantum_eq_target {m : ℕ} {e t : ℤ} {x : ℚ} (ht : t = max (m.log2 + e - 52) (-1074))
    (he : e ≤ t) (hx : 0 < x) (hle : m * 2 ^ e ≤ x) (hlt : x < (m + 1) * 2 ^ e) :
    quantum x = t := by
  refine quantum_eq (by omega) ?_ ?_ hx.ne'
  · rw [abs_of_pos hx]
    have hm : (m : ℚ) + 1 ≤ 2 ^ (m.log2 + 1) := by exact_mod_cast Nat.lt_log2_self
    calc x < (m + 1) * 2 ^ e := hlt
      _ ≤ 2 ^ (m.log2 + 1) * 2 ^ e := mul_le_mul_of_nonneg_right hm (by positivity)
      _ = 2 ^ ((m.log2 : ℤ) + 1 + e) := by
          rw [zpow_add₀ (by norm_num)]
          norm_cast
      _ ≤ 2 ^ (t + 53) := zpow_le_zpow_right₀ (by norm_num) (by omega)
  · rcases eq_or_ne t (-1074) with hleast | hmore
    · exact .inl hleast
    · right
      rw [abs_of_pos hx]
      have hm : m ≠ 0 := by
        rintro rfl
        simp at ht
        omega
      have hlog : (2 : ℚ) ^ m.log2 ≤ m := by exact_mod_cast Nat.log2_self_le hm
      calc (2 : ℚ) ^ (t + 52) = 2 ^ m.log2 * 2 ^ e := by
            rw [show t + 52 = m.log2 + e by omega, zpow_add₀ (by norm_num), zpow_natCast]
        _ ≤ m * 2 ^ e := mul_le_mul_of_nonneg_right hlog (by positivity)
        _ ≤ x := hle

theorem shiftToTargetExponent_extends {m : ℕ} {e t : ℤ} {accuracy : Accuracy} {x : ℚ}
    (ht : t = max (m.log2 + e - 52) (-1074)) (he : e ≤ t)
    (h : Extends (.ofMantissaAndAccuracy m accuracy) (x / 2 ^ e)) :
    ∃ em, shiftToTargetExponent Format.binary64 m e accuracy = (em, t) ∧
      Extends em (x / 2 ^ t) := by
  obtain ⟨n, rfl⟩ : ∃ n : ℕ, t = e + n := ⟨(t - e).toNat, by omega⟩
  have hshift := h.shiftRight n
  rw [div_div, ← zpow_natCast, ← zpow_add₀ (by norm_num)] at hshift
  refine ⟨_, ?_, hshift⟩
  rw [shiftToTargetExponent, targetExponent_eq, ← ht, shiftToExponent]
  have hn : (e + n - e).toNat = n := by omega
  rw [hn]

/-- A mantissa that has just been rounded is shifted again only if it has got a
bit longer, and that bit is a zero. -/
theorem shiftToTargetExponent_rounded {m : ℕ} {t : ℤ} (hm : m ≤ 2 ^ 53) (ht : -1074 ≤ t)
    (hfull : 2 ^ 52 ≤ m ∨ t = -1074) :
    ∃ em s, shiftToTargetExponent Format.binary64 m t .exact = (em, s) ∧
      em.mantissa < 2 ^ 53 ∧ -1074 ≤ s ∧ (2 ^ 52 ≤ em.mantissa ∨ s = -1074) ∧
      (em.mantissa : ℚ) * 2 ^ s = m * 2 ^ t := by
  rw [shiftToTargetExponent, targetExponent_eq, shiftToExponent]
  rcases hm.eq_or_lt with hlong | hshort
  · have hlog : m.log2 = 53 := by rw [hlong, Nat.log2_two_pow]
    have hamount : (max ((m.log2 : ℤ) + t - 52) (-1074) - t).toNat = 1 := by omega
    refine ⟨⟨2 ^ 52, false, false⟩, t + 1, ?_, by norm_num, by omega, .inl le_rfl, ?_⟩
    · rw [hamount, hlong]
      rfl
    · rw [hlong, zpow_add₀ (by norm_num)]
      push_cast
      ring
  · have hlog : m.log2 ≤ 52 := by
      rcases eq_or_ne m 0 with rfl | hne
      · decide
      · have := (Nat.log2_lt hne).2 hshort
        omega
    have hamount : (max ((m.log2 : ℤ) + t - 52) (-1074) - t).toNat = 0 := by omega
    refine ⟨⟨m, false, false⟩, t, ?_, hshort, ht, hfull, rfl⟩
    rw [hamount, Nat.cast_zero, add_zero]
    rfl

/-! ## Numbers -/

/-- The sign as a number. -/
def unit : Sign → ℚ
  | .negative => -1
  | .positive => 1

/-- An unpacked number is finite and has this value. -/
def Denotes : UnpackedFloat → ℚ → Prop
  | .zero _, q => q = 0
  | .finite sign significand exponent _, q => q = unit sign * (significand * 2 ^ exponent)
  | _, _ => False

/-- A result of which enough is known is rounded to the nearest number. -/
theorem roundWithAccuracy_spec {sign : Sign} {m : ℕ} {e : ℤ} {accuracy : Accuracy} {x : ℚ}
    (hx : 0 < x) (he : e ≤ max (m.log2 + e - 52) (-1074))
    (h : Extends (.ofMantissaAndAccuracy m accuracy) (x / 2 ^ e)) :
    Canonical (roundWithAccuracy Format.binary64 sign m e accuracy) ∧
      Denotes (roundWithAccuracy Format.binary64 sign m e accuracy) (unit sign * nearest x) := by
  obtain ⟨t, ht⟩ : ∃ t, t = max ((m.log2 : ℤ) + e - 52) (-1074) := ⟨_, rfl⟩
  rw [← ht] at he
  obtain ⟨em, hshift, hem⟩ := shiftToTargetExponent_extends ht he h
  have hquantum : quantum x = t := by
    have hmantissa : (ExtendedMantissa.ofMantissaAndAccuracy m accuracy).mantissa = m := by
      rcases accuracy with _ | _ | _ | _ <;> rfl
    have hle := h.le
    have hlt := h.lt
    rw [hmantissa] at hle hlt
    exact quantum_eq_target ht he hx ((le_div_iff₀ (by positivity)).1 hle)
      ((div_lt_iff₀ (by positivity)).1 hlt)
  obtain ⟨r, hr⟩ : ∃ r, r = em.roundedMantissa := ⟨_, rfl⟩
  have hround : roundEven (x / 2 ^ quantum x) = r := by
    rw [hquantum, hr]
    exact roundEven_eq hem.isNearest
  have hle : r ≤ 2 ^ 53 := by
    have := abs_roundEven_quantum_le x
    rw [hround, abs_of_nonneg (by positivity)] at this
    exact_mod_cast this
  have hfull : 2 ^ 52 ≤ r ∨ t = -1074 := by
    refine or_iff_not_imp_right.2 fun hmore => ?_
    have := two_pow_le_roundEven hx (by omega)
    rw [hround] at this
    exact_mod_cast this
  obtain ⟨em', s, hagain, hlt, hs, hcanonical, hvalue⟩ :=
    shiftToTargetExponent_rounded hle (by omega : -1074 ≤ t) hfull
  have hnearest : nearest x = em'.mantissa * 2 ^ s := by
    rw [nearest, hround, hquantum, Int.cast_natCast, hvalue]
  rw [roundWithAccuracy, hshift]
  dsimp only
  rw [← hr, hagain, hnearest]
  dsimp only
  by_cases hzero : em'.mantissa = 0
  · simp [hzero, Canonical, Denotes]
  · rw [dif_neg hzero]
    exact ⟨⟨hlt, hs, hcanonical⟩, rfl⟩

theorem log2_shiftLeft {m : ℕ} (hm : 0 < m) (n : ℕ) : (m <<< n).log2 = m.log2 + n := by
  induction n with
  | zero => rfl
  | succ n ih =>
      have hne : m <<< n ≠ 0 := by
        rw [Nat.shiftLeft_eq]
        positivity
      rw [Nat.shiftLeft_succ, Nat.log2_two_mul hne, ih]
      omega

theorem cast_shiftLeft (m n : ℕ) (e : ℤ) :
    ((m <<< n : ℕ) : ℚ) * 2 ^ (e - n) = m * 2 ^ e := by
  rw [Nat.shiftLeft_eq, zpow_sub₀ (by norm_num)]
  push_cast
  rw [zpow_natCast]
  field_simp

/-- So is a result that is known in full, wherever its last bit is. -/
theorem round_spec {sign : Sign} {m : ℕ} {e : ℤ} (hm : 0 < m) :
    Canonical (UnpackedFloat.round Format.binary64 sign m e) ∧
      Denotes (UnpackedFloat.round Format.binary64 sign m e)
        (unit sign * nearest (m * 2 ^ e)) := by
  obtain ⟨n, hn⟩ : ∃ n, n = (e - max ((m.log2 : ℤ) + e - 52) (-1074)).toNat := ⟨_, rfl⟩
  have hlog := log2_shiftLeft hm n
  have hpos : 0 < m <<< n := by
    rw [Nat.shiftLeft_eq]
    positivity
  rw [UnpackedFloat.round, targetExponent_eq, decreaseExponent, ← hn, ← cast_shiftLeft m n]
  refine roundWithAccuracy_spec (by positivity) ?_ (extends_scaled _ _)
  rw [hlog]
  push_cast
  omega

end Binary64

end Sexpr

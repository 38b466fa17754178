import Sexpr.Proofs.FloatArithmetic

/-!
# The order of floats

Two finite floats are compared by their signs, then by their exponents and only
then by their significands. This is the order of the numbers they stand for, and
that rests on the form in which they are stored: a greater exponent can be made up
for by a greater significand only if that has more than 53 bits.

An integer takes part in a comparison as the nearest float. Rounding does not
turn an order round, but it may make two numbers equal that were not. Of 64-bit
integers this happens only to such as have more than 53 bits and lie close together.
-/

namespace Sexpr

open Float.Model Float.Model.UnpackedFloat

namespace Binary64

/-! ## Unpacked numbers -/

/-- The greater exponent decides. -/
theorem mul_two_zpow_lt {m₁ m₂ : ℕ} {e₁ e₂ : ℤ} (hm₁ : m₁ < 2 ^ 53)
    (hm₂ : 2 ^ 52 ≤ m₂ ∨ e₂ = -1074) (he₁ : -1074 ≤ e₁) (h : e₁ < e₂) :
    (m₁ : ℚ) * 2 ^ e₁ < m₂ * 2 ^ e₂ := by
  have hfull : 2 ^ 52 ≤ m₂ := hm₂.resolve_right (by omega)
  have hfull : ((2 ^ 52 : ℕ) : ℚ) ≤ m₂ := by exact_mod_cast hfull
  have hless : (m₁ : ℚ) < (2 ^ 53 : ℕ) := by exact_mod_cast hm₁
  calc (m₁ : ℚ) * 2 ^ e₁ < (2 ^ 53 : ℕ) * 2 ^ e₁ := mul_lt_mul_of_pos_right hless (by positivity)
    _ = (2 ^ 52 : ℕ) * 2 ^ (e₁ + 1) := by
        rw [zpow_add₀ (by norm_num)]
        push_cast
        ring
    _ ≤ (2 ^ 52 : ℕ) * 2 ^ e₂ :=
        mul_le_mul_of_nonneg_left (zpow_le_zpow_right₀ (by norm_num) (by omega)) (by positivity)
    _ ≤ m₂ * 2 ^ e₂ := mul_le_mul_of_nonneg_right hfull (by positivity)

theorem compare_magnitudes {m₁ m₂ : ℕ} {e₁ e₂ : ℤ} {s₁ s₂ : Sign} {h₁ : 0 < m₁} {h₂ : 0 < m₂}
    (hu : Canonical (.finite s₁ m₁ e₁ h₁)) (hv : Canonical (.finite s₂ m₂ e₂ h₂)) :
    (compare e₁ e₂).then (compare m₁ m₂) = compare ((m₁ : ℚ) * 2 ^ e₁) (m₂ * 2 ^ e₂) := by
  rcases lt_trichotomy e₁ e₂ with hlt | rfl | hgt
  · rw [compare_lt_iff_lt.2 hlt, compare_lt_iff_lt.2 (mul_two_zpow_lt hu.1 hv.2.2 hu.2.1 hlt)]
    rfl
  · have hpos : (0 : ℚ) < 2 ^ e₁ := by positivity
    rw [compare_eq_iff_eq.2 rfl, Ordering.eq_then]
    rcases lt_trichotomy m₁ m₂ with hlt | rfl | hgt
    · have hlt' : (m₁ : ℚ) < m₂ := by exact_mod_cast hlt
      rw [compare_lt_iff_lt.2 hlt, compare_lt_iff_lt.2 (mul_lt_mul_of_pos_right hlt' hpos)]
    · rw [compare_eq_iff_eq.2 rfl, compare_eq_iff_eq.2 rfl]
    · have hgt' : (m₂ : ℚ) < m₁ := by exact_mod_cast hgt
      rw [compare_gt_iff_gt.2 hgt, compare_gt_iff_gt.2 (mul_lt_mul_of_pos_right hgt' hpos)]
  · rw [compare_gt_iff_gt.2 hgt, compare_gt_iff_gt.2 (mul_two_zpow_lt hv.1 hu.2.2 hv.2.1 hgt)]
    rfl

theorem compare_neg (p q : ℚ) : compare (-p) (-q) = (compare p q).swap := by
  rcases lt_trichotomy p q with h | rfl | h
  · rw [compare_lt_iff_lt.2 h, compare_gt_iff_gt.2 (neg_lt_neg h)]
    rfl
  · rw [compare_eq_iff_eq.2 rfl, compare_eq_iff_eq.2 rfl]
    rfl
  · rw [compare_gt_iff_gt.2 h, compare_lt_iff_lt.2 (neg_lt_neg h)]
    rfl

/-- Finite floats are compared as the numbers they stand for. -/
theorem compare_spec {u v : UnpackedFloat} {p q : ℚ} (hu : Canonical u) (hv : Canonical v)
    (hp : Denotes u p) (hq : Denotes v q) :
    UnpackedFloat.compare u v = some (compare p q) := by
  cases u with
  | infinity | notANumber => exact hp.elim
  | zero =>
      obtain rfl : p = 0 := hp
      cases v with
      | infinity | notANumber => exact hq.elim
      | zero =>
          obtain rfl : q = 0 := hq
          rfl
      | finite s₂ m₂ e₂ h₂ =>
          obtain rfl : q = unit s₂ * (m₂ * 2 ^ e₂) := hq
          have hpos : (0 : ℚ) < m₂ * 2 ^ e₂ := by positivity
          cases s₂ with
          | negative =>
              rw [unit, neg_one_mul, compare_gt_iff_gt.2 (neg_lt_zero.2 hpos)]
              rfl
          | positive =>
              rw [unit, one_mul, compare_lt_iff_lt.2 hpos]
              rfl
  | finite s₁ m₁ e₁ h₁ =>
      obtain rfl : p = unit s₁ * (m₁ * 2 ^ e₁) := hp
      have hpos₁ : (0 : ℚ) < m₁ * 2 ^ e₁ := by positivity
      cases v with
      | infinity | notANumber => exact hq.elim
      | zero =>
          obtain rfl : q = 0 := hq
          cases s₁ with
          | negative =>
              rw [unit, neg_one_mul, compare_lt_iff_lt.2 (neg_lt_zero.2 hpos₁)]
              rfl
          | positive =>
              rw [unit, one_mul, compare_gt_iff_gt.2 hpos₁]
              rfl
      | finite s₂ m₂ e₂ h₂ =>
          obtain rfl : q = unit s₂ * (m₂ * 2 ^ e₂) := hq
          have hpos₂ : (0 : ℚ) < m₂ * 2 ^ e₂ := by positivity
          have hmagnitudes := compare_magnitudes hu hv
          cases s₁ with
          | negative =>
              rw [unit, neg_one_mul]
              cases s₂ with
              | negative =>
                  rw [unit, neg_one_mul, compare_neg, ← hmagnitudes]
                  rfl
              | positive =>
                  rw [unit, one_mul, compare_lt_iff_lt.2 ((neg_lt_zero.2 hpos₁).trans hpos₂)]
                  rfl
          | positive =>
              rw [unit, one_mul]
              cases s₂ with
              | negative =>
                  rw [unit, neg_one_mul, compare_gt_iff_gt.2 ((neg_lt_zero.2 hpos₂).trans hpos₁)]
                  rfl
              | positive =>
                  rw [unit, one_mul, ← hmagnitudes]
                  rfl

/-! ## Floats -/

theorem lt_iff {x y : Float} {p q : ℚ} (hx : Denotes (unpacked x) p)
    (hy : Denotes (unpacked y) q) : x < y ↔ p < q := by
  have hcompare : UnpackedFloat.compare (unpacked x) (unpacked y) = some (compare p q) :=
    compare_spec (canonical_unpack _) (canonical_unpack _) hx hy
  have hless : x < y ↔ (unpacked x).lt (unpacked y) = true := by
    change decide ((unpacked x).lt (unpacked y) = true) = true ↔ _
    rw [decide_eq_true_iff]
  rw [hless, UnpackedFloat.lt, hcompare, beq_iff_eq, Option.some_inj, compare_lt_iff_lt]

/-- Integers are compared as the floats nearest to them. -/
theorem floatOfInt_lt_iff (a b : Int64) :
    floatOfInt a < floatOfInt b ↔ nearest a.toInt < nearest b.toInt :=
  lt_iff (denotes_floatOfInt a) (denotes_floatOfInt b)

end Binary64

/-! ## Rounding and order -/

/-- Rounding keeps an order, unless it makes the two numbers equal. -/
theorem nearest_lt_nearest_iff {p q : ℚ} :
    nearest p < nearest q ↔ p < q ∧ nearest p ≠ nearest q := by
  constructor
  · intro h
    refine ⟨?_, h.ne⟩
    by_contra hle
    exact absurd (nearest_mono (not_lt.1 hle)) (not_le.2 h)
  · intro ⟨hlt, hne⟩
    exact (nearest_mono hlt.le).lt_of_ne hne

/-- A 64-bit integer is rounded by no more than half of the widest spacing. -/
theorem abs_toInt_sub_nearest_le (n : Int64) : |(n.toInt : ℚ) - nearest n.toInt| ≤ 2 ^ 9 := by
  have hlower := n.le_toInt
  have hupper := n.toInt_lt
  rcases hlower.eq_or_lt with hleast | hmore
  · -- The least integer has a bit more than the others, but is a power of two.
    have hpower : Representable n.toInt := by
      rw [← hleast]
      have h := (representable_two_zpow (e := 63) (by norm_num)).neg
      norm_num at h ⊢
      exact h
    rw [hpower, sub_self, abs_zero]
    norm_num
  · rcases eq_or_ne n.toInt 0 with hzero | hne
    · rw [hzero]
      simp
    · have hbits : |(n.toInt : ℚ)| < 2 ^ 63 := by
        rw [← Int.cast_abs]
        exact_mod_cast abs_lt.2 ⟨hmore, hupper⟩
      have hpos : 0 < |(n.toInt : ℚ)| := abs_pos.2 (by exact_mod_cast hne)
      have hlog : Int.log 2 |(n.toInt : ℚ)| < 63 :=
        (Int.lt_zpow_iff_log_lt (by norm_num) hpos).1 (by exact_mod_cast hbits)
      have hquantum : quantum n.toInt ≤ 10 := by
        rw [quantum]
        omega
      calc |(n.toInt : ℚ) - nearest n.toInt| ≤ 2 ^ quantum n.toInt / 2 := abs_sub_nearest_le _
        _ ≤ 2 ^ (10 : ℤ) / 2 :=
            div_le_div_of_nonneg_right (zpow_le_zpow_right₀ (by norm_num) hquantum) (by norm_num)
        _ = 2 ^ 9 := by norm_num

/-- Rounding makes two integers equal only if one of them has more than 53 bits and
the other is not far from it. -/
theorem close_of_nearest_eq {a b : Int64} (hlt : a < b)
    (h : nearest a.toInt = nearest b.toInt) :
    (2 ^ 53 < |a.toInt| ∨ 2 ^ 53 < |b.toInt|) ∧ b.toInt - a.toInt ≤ 1024 := by
  have hlt : a.toInt < b.toInt := Int64.lt_iff_toInt_lt.1 hlt
  constructor
  · by_contra hfew
    rw [not_or, not_lt, not_lt] at hfew
    rw [representable_intCast hfew.1, representable_intCast hfew.2, Int.cast_inj] at h
    omega
  · obtain ⟨ha, -⟩ := abs_le.1 (abs_toInt_sub_nearest_le a)
    obtain ⟨-, hb⟩ := abs_le.1 (abs_toInt_sub_nearest_le b)
    have hdistance : (b.toInt : ℚ) - a.toInt ≤ 1024 := by linarith
    exact_mod_cast hdistance

end Sexpr

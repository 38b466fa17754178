import Sexpr.Proofs.FloatRounding

/-!
# Operations on unpacked numbers

The result of an operation on finite numbers is the nearest number to the exact
result. There is no bound to how great it is, for that is a matter of storing it.

Addition brings its operands to one exponent and is exact until it rounds. The
product of two significands is exact too; that it has 53 bits, or an exponent
that is low enough, is where the canonical form of the operands comes in. A
quotient need not end, but the dividend is shifted until there are bits enough,
and of the others the remainder tells what rounding has to know.
-/

namespace Sexpr

open Float.Model Float.Model.UnpackedFloat

namespace Binary64

/-! ## Signs -/

theorem unit_mul (s t : Sign) : unit (s * t) = unit s * unit t := by
  cases s <;> cases t
  · exact (by norm_num : (1 : ℚ) = -1 * -1)
  · exact (by norm_num : (-1 : ℚ) = -1 * 1)
  · exact (by norm_num : (-1 : ℚ) = 1 * -1)
  · exact (by norm_num : (1 : ℚ) = 1 * 1)

theorem unit_neg (s : Sign) : unit (-s) = -unit s := by
  cases s
  · exact (neg_neg _).symm
  · rfl

theorem unit_mul_self (s : Sign) : unit s * unit s = 1 := by
  cases s <;> norm_num [unit]

theorem abs_unit (s : Sign) : |unit s| = 1 := by
  cases s <;> norm_num [unit]

theorem unit_ne_zero (s : Sign) : unit s ≠ 0 := by
  cases s <;> norm_num [unit]

theorem unit_div (s t : Sign) : unit (s / t) = unit s / unit t := by
  have hsame : unit (s / t) = unit (s * t) := by
    cases s <;> cases t <;> rfl
  rw [hsame, unit_mul, eq_div_iff (unit_ne_zero t), mul_assoc, unit_mul_self, mul_one]

theorem unit_mul_le_abs (s : Sign) (q : ℚ) : unit s * q ≤ |q| := by
  have h := le_abs_self (unit s * q)
  rwa [abs_mul, abs_unit, one_mul] at h

theorem nearest_unit_mul (s : Sign) (q : ℚ) : nearest (unit s * q) = unit s * nearest q := by
  cases s
  · rw [unit, neg_one_mul, neg_one_mul, nearest_neg]
  · rw [unit, one_mul, one_mul]

theorem apply_eq (s : Sign) (n : ℤ) : ((s.apply n : ℤ) : ℚ) = unit s * n := by
  cases s <;> simp [Sign.apply, unit]

/-! ## Sums and products -/

theorem Denotes.representable {u : UnpackedFloat} {q : ℚ} (hu : Canonical u) (h : Denotes u q) :
    Representable q := by
  cases u with
  | zero sign =>
      obtain rfl : q = 0 := h
      exact representable_zero
  | finite sign m e hm =>
      obtain rfl : q = unit sign * (m * 2 ^ e) := h
      have habs : |((m : ℕ) : ℤ)| ≤ 2 ^ 53 := by
        rw [abs_of_nonneg (by positivity)]
        have := hu.1
        omega
      have h := representable_of_grid habs hu.2.1
      rw [Representable, nearest_unit_mul]
      exact congrArg _ h
  | infinity | notANumber => exact h.elim

/-- An integer times a power of two is rounded to the nearest number. -/
theorem normalize_spec (n : ℤ) (e : ℤ) (zeroSign : Sign) :
    Canonical (UnpackedFloat.normalize Format.binary64 n e zeroSign) ∧
      Denotes (UnpackedFloat.normalize Format.binary64 n e zeroSign) (nearest (n * 2 ^ e)) := by
  rw [UnpackedFloat.normalize]
  split
  · next hneg =>
      rw [compare_lt_iff_lt] at hneg
      obtain ⟨m, rfl⟩ : ∃ m : ℕ, n = -m := ⟨n.natAbs, by omega⟩
      have h : _ ∧ Denotes (UnpackedFloat.round Format.binary64 .negative m e) _ :=
        round_spec (by omega : 0 < m)
      rw [← nearest_unit_mul] at h
      simpa [unit] using h
  · next hzero =>
      obtain rfl := compare_eq_iff_eq.1 hzero
      simp [Canonical, Denotes]
  · next hpos =>
      rw [compare_gt_iff_gt] at hpos
      obtain ⟨m, rfl⟩ : ∃ m : ℕ, n = m := ⟨n.natAbs, by omega⟩
      have h : _ ∧ Denotes (UnpackedFloat.round Format.binary64 .positive m e) _ :=
        round_spec (by omega : 0 < m)
      rw [← nearest_unit_mul] at h
      simpa [unit] using h

/-- Aligning a number to a lesser exponent does not change it. -/
theorem decreaseExponent_value (sign : Sign) (m : ℕ) {e least : ℤ} (h : least ≤ e) :
    ((sign.apply ((decreaseExponent m e least).1 : ℤ) : ℤ) : ℚ) * 2 ^ least =
      unit sign * (m * 2 ^ e) := by
  obtain ⟨n, rfl⟩ : ∃ n : ℕ, e = least + n := ⟨(e - least).toNat, by omega⟩
  have hn : (least + n - least).toNat = n := by omega
  rw [apply_eq, decreaseExponent, hn, ← cast_shiftLeft m n, add_sub_cancel_right, Int.cast_natCast]
  ring

theorem add_spec {u v : UnpackedFloat} {p q : ℚ} (hu : Canonical u) (hv : Canonical v)
    (hp : Denotes u p) (hq : Denotes v q) :
    Canonical (UnpackedFloat.add Format.binary64 u v) ∧
      Denotes (UnpackedFloat.add Format.binary64 u v) (nearest (p + q)) := by
  have hrp := hp.representable hu
  have hrq := hq.representable hv
  cases u with
  | infinity | notANumber => exact hp.elim
  | zero =>
      obtain rfl : p = 0 := hp
      rw [zero_add, hrq]
      cases v with
      | infinity | notANumber => exact hq.elim
      | zero =>
          rw [UnpackedFloat.add]
          split
          · exact ⟨trivial, hq⟩
          · exact ⟨trivial, hq⟩
      | finite => exact ⟨hv, hq⟩
  | finite s₁ m₁ e₁ =>
      cases v with
      | infinity | notANumber => exact hq.elim
      | zero =>
          obtain rfl : q = 0 := hq
          rw [add_zero, hrp]
          exact ⟨hu, hp⟩
      | finite s₂ m₂ e₂ =>
          have hsum : p + q =
              ((s₁.apply ((decreaseExponent m₁ e₁ (min e₁ e₂)).1 : ℤ) +
                s₂.apply ((decreaseExponent m₂ e₂ (min e₁ e₂)).1 : ℤ) : ℤ) : ℚ) *
                2 ^ min e₁ e₂ := by
            rw [Int.cast_add, add_mul, decreaseExponent_value s₁ m₁ (min_le_left _ _),
              decreaseExponent_value s₂ m₂ (min_le_right _ _)]
            exact congrArg₂ _ hp hq
          rw [hsum]
          exact normalize_spec _ _ _

theorem mul_spec {u v : UnpackedFloat} {p q : ℚ} (hu : Canonical u) (hv : Canonical v)
    (hp : Denotes u p) (hq : Denotes v q) :
    Canonical (UnpackedFloat.mul Format.binary64 u v) ∧
      Denotes (UnpackedFloat.mul Format.binary64 u v) (nearest (p * q)) := by
  cases u with
  | infinity | notANumber => exact hp.elim
  | zero =>
      obtain rfl : p = 0 := hp
      rw [zero_mul, nearest_zero]
      cases v with
      | infinity | notANumber => exact hq.elim
      | zero | finite => exact ⟨trivial, rfl⟩
  | finite s₁ m₁ e₁ hm₁ =>
      cases v with
      | infinity | notANumber => exact hq.elim
      | zero =>
          obtain rfl : q = 0 := hq
          rw [mul_zero, nearest_zero]
          exact ⟨trivial, rfl⟩
      | finite s₂ m₂ e₂ hm₂ =>
          have hm : 0 < m₁ * m₂ := Nat.mul_pos hm₁ hm₂
          -- One factor has 53 bits, or both have the least exponent.
          have hbits : 52 ≤ (m₁ * m₂).log2 ∨ e₁ + e₂ ≤ -1074 := by
            rcases hu.2.2 with hfull | hleast₁
            · exact .inl ((Nat.le_log2 hm.ne').2 (hfull.trans (Nat.le_mul_of_pos_right _ hm₂)))
            · rcases hv.2.2 with hfull | hleast₂
              · exact .inl ((Nat.le_log2 hm.ne').2 (hfull.trans (Nat.le_mul_of_pos_left _ hm₁)))
              · exact .inr (by omega)
          have hproduct : p * q =
              unit (s₁ * s₂) * ((m₁ * m₂ : ℕ) * 2 ^ (e₁ + e₂)) := by
            rw [show p = unit s₁ * (m₁ * 2 ^ e₁) from hp, show q = unit s₂ * (m₂ * 2 ^ e₂) from hq,
              unit_mul, zpow_add₀ (by norm_num)]
            push_cast
            ring
          rw [hproduct, nearest_unit_mul]
          exact roundWithAccuracy_spec (by positivity) (by omega) (extends_scaled _ _)

/-! ## Quotients -/

/-- The remainder of a division says enough about the quotient. -/
theorem extends_quotient (a : ℕ) {b : ℕ} (hb : 0 < b) :
    Extends (.ofMantissaAndAccuracy (a / b) (accuracyOfFraction (a % b) b)) (a / b) := by
  have hdivision : (a : ℚ) / b = (a / b : ℕ) + (a % b : ℕ) / b := by
    have hb' : (b : ℚ) ≠ 0 := by positivity
    rw [div_eq_iff hb', add_mul, div_mul_cancel₀ _ hb', mul_comm]
    exact_mod_cast (Nat.div_add_mod a b).symm
  have hlt : ((a % b : ℕ) : ℚ) / b < 1 := by
    rw [div_lt_one (by positivity)]
    exact_mod_cast Nat.mod_lt a hb
  rw [accuracyOfFraction, hdivision]
  generalize a % b = rest at hlt
  split
  · next hzero =>
      rw [hzero, Nat.cast_zero, zero_div, add_zero]
      exact extends_exact _
  · next hpos =>
      have hrest : 0 < (rest : ℚ) / b := by positivity
      cases hcompare : compare (2 * rest) b with
      | lt =>
          rw [compare_lt_iff_lt] at hcompare
          refine ⟨rest / b, by simp [ExtendedMantissa.ofMantissaAndAccuracy], hrest.le, ?_, ?_⟩
          · rw [div_lt_div_iff₀ (by positivity) (by norm_num)]
            exact_mod_cast (by omega : rest * 2 < 1 * b)
          · simpa [ExtendedMantissa.ofMantissaAndAccuracy] using hrest.ne'
      | eq =>
          rw [compare_eq_iff_eq] at hcompare
          have hhalf : (rest : ℚ) / b = 1 / 2 := by
            rw [div_eq_div_iff (by positivity) (by norm_num)]
            exact_mod_cast (by omega : rest * 2 = 1 * b)
          exact ⟨0, by simp [ExtendedMantissa.ofMantissaAndAccuracy, hhalf]⟩
      | gt =>
          rw [compare_gt_iff_gt] at hcompare
          have hhalf : 1 / 2 < (rest : ℚ) / b := by
            rw [div_lt_div_iff₀ (by norm_num) (by positivity)]
            exact_mod_cast (by omega : 1 * b < rest * 2)
          refine ⟨rest / b - 1 / 2, by simp [ExtendedMantissa.ofMantissaAndAccuracy],
            by linarith, by linarith, ?_⟩
          simp [ExtendedMantissa.ofMantissaAndAccuracy]
          linarith

/-- A dividend shifted far enough leaves 53 bits of the quotient. -/
theorem two_pow_le_shiftLeft_div {a b n : ℕ} (ha : 0 < a) (hb : 0 < b)
    (h : 53 + b.log2 ≤ a.log2 + n) : 2 ^ 52 ≤ a <<< n / b := by
  rw [Nat.le_div_iff_mul_le hb]
  calc 2 ^ 52 * b ≤ 2 ^ 52 * 2 ^ (b.log2 + 1) := Nat.mul_le_mul_left _ Nat.lt_log2_self.le
    _ = 2 ^ (53 + b.log2) := by ring
    _ ≤ 2 ^ (a.log2 + n) := Nat.pow_le_pow_right (by norm_num) h
    _ = 2 ^ a.log2 * 2 ^ n := pow_add _ _ _
    _ ≤ a * 2 ^ n := Nat.mul_le_mul_right _ (Nat.log2_self_le ha.ne')
    _ = a <<< n := (Nat.shiftLeft_eq _ _).symm

theorem div_shiftLeft (a : ℕ) {b : ℕ} (hb : 0 < b) {e f t : ℤ} {n : ℕ} (h : e - f = t + n) :
    ((a <<< n : ℕ) : ℚ) / b * 2 ^ t = a * 2 ^ e / (b * 2 ^ f) := by
  rw [← cast_shiftLeft a n e, show e - n = t + f by omega, zpow_add₀ (by norm_num)]
  field_simp

theorem div_spec {u v : UnpackedFloat} {p q : ℚ} (hp : Denotes u p) (hq : Denotes v q)
    (hzero : q ≠ 0) :
    Canonical (UnpackedFloat.div Format.binary64 u v) ∧
      Denotes (UnpackedFloat.div Format.binary64 u v) (nearest (p / q)) := by
  cases v with
  | infinity | notANumber => exact hq.elim
  | zero => exact absurd hq hzero
  | finite s₂ m₂ e₂ hm₂ =>
      cases u with
      | infinity | notANumber => exact hp.elim
      | zero =>
          obtain rfl : p = 0 := hp
          rw [zero_div, nearest_zero]
          exact ⟨trivial, rfl⟩
      | finite s₁ m₁ e₁ hm₁ =>
          obtain ⟨t, ht⟩ : ∃ t, t = min (e₁ - e₂)
              (max ((m₁.log2 : ℤ) + e₁ - (m₂.log2 + e₂) - 53) (-1074)) := ⟨_, rfl⟩
          have htarget : min (e₁ - e₂) (Format.binary64.targetExponent
              (totalExponent m₁ e₁ - totalExponent m₂ e₂)) = t := by
            rw [ht]
            simp only [Format.targetExponent, totalExponent, Format.mantissaBits,
              Format.minExponent]
            norm_num
            omega
          obtain ⟨n, hn⟩ : ∃ n : ℕ, e₁ - e₂ = t + n := ⟨(e₁ - e₂ - t).toNat, by omega⟩
          have hamount : (e₁ - e₂ - t).toNat = n := by omega
          have hlog : t ≤ -1074 ∨ 52 ≤ (m₁ <<< n / m₂).log2 := by
            refine or_iff_not_imp_left.2 fun hmore => ?_
            have hbits : 2 ^ 52 ≤ m₁ <<< n / m₂ := two_pow_le_shiftLeft_div hm₁ hm₂ (by omega)
            exact (Nat.le_log2 (by omega)).2 hbits
          have hquotient : p / q = unit (s₁ / s₂) * ((m₁ <<< n : ℕ) / m₂ * 2 ^ t) := by
            rw [div_shiftLeft m₁ hm₂ hn, show p = unit s₁ * (m₁ * 2 ^ e₁) from hp,
              show q = unit s₂ * (m₂ * 2 ^ e₂) from hq, mul_div_mul_comm, unit_div]
          rw [hquotient, nearest_unit_mul, UnpackedFloat.div, divCore]
          dsimp only
          rw [htarget, hamount]
          refine roundWithAccuracy_spec ?_ (by omega) ?_
          · have : 0 < m₁ <<< n := by
              rw [Nat.shiftLeft_eq]
              positivity
            positivity
          · rw [mul_div_cancel_right₀ _ (by positivity)]
            exact extends_quotient _ hm₂

theorem neg_spec {u : UnpackedFloat} {q : ℚ} (hu : Canonical u) (h : Denotes u q) :
    Canonical u.neg ∧ Denotes u.neg (-q) := by
  cases u with
  | infinity | notANumber => exact h.elim
  | zero =>
      obtain rfl : q = 0 := h
      exact ⟨trivial, neg_zero⟩
  | finite s m e hm =>
      refine ⟨hu, ?_⟩
      rw [show q = unit s * (m * 2 ^ e) from h, ← neg_mul, ← unit_neg]
      rfl

end Binary64

end Sexpr

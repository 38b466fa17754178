import Sexpr.Proofs.Rounding

/-!
# Cutting off the fraction

The result of an arithmetic operation on integers becomes an integer again by
cutting off what lies behind the point. That comes after rounding, so it might
be that a quotient just below an integer is rounded to it and keeps nothing to
cut off. This does not happen as long as the dividend has no more than 53 bits:
the quotient misses the integer by one part in the divisor, and it is rounded by
less (`truncate_nearest_div`).
-/

namespace Sexpr

/-- The next integer towards zero. -/
def truncate (q : ℚ) : ℤ :=
  if 0 ≤ q then ⌊q⌋ else ⌈q⌉

theorem truncate_neg (q : ℚ) : truncate (-q) = -truncate q := by
  rw [truncate, truncate]
  rcases lt_trichotomy q 0 with h | rfl | h
  · rw [if_pos (by linarith), if_neg (by linarith), Int.floor_neg]
  · simp
  · rw [if_neg (by linarith), if_pos (by linarith), Int.ceil_neg]

theorem truncate_intCast (n : ℤ) : truncate n = n := by
  rw [truncate, Int.floor_intCast, Int.ceil_intCast, ite_self]

theorem truncate_natCast_div (a b : ℕ) : truncate (a / b) = (a / b : ℕ) := by
  rw [truncate, if_pos (by positivity), Rat.floor_natCast_div_natCast]
  rfl

theorem truncate_div (a b : ℤ) : truncate (a / b) = a.tdiv b := by
  obtain ⟨m, rfl | rfl⟩ := a.eq_nat_or_neg
  · obtain ⟨n, rfl | rfl⟩ := b.eq_nat_or_neg
    · exact truncate_natCast_div m n
    · rw [Int.tdiv_neg, Int.cast_neg, div_neg, truncate_neg]
      exact congrArg _ (truncate_natCast_div m n)
  · obtain ⟨n, rfl | rfl⟩ := b.eq_nat_or_neg
    · rw [Int.neg_tdiv, Int.cast_neg, neg_div, truncate_neg]
      exact congrArg _ (truncate_natCast_div m n)
    · rw [Int.neg_tdiv, Int.tdiv_neg, neg_neg, Int.cast_neg, Int.cast_neg, neg_div_neg_eq]
      exact truncate_natCast_div m n

theorem truncate_mono {p q : ℚ} (h : p ≤ q) : truncate p ≤ truncate q := by
  rw [truncate, truncate]
  rcases le_or_gt 0 p with hp | hp
  · rw [if_pos hp, if_pos (hp.trans h)]
    exact Int.floor_mono h
  · rw [if_neg (not_le.2 hp)]
    split
    · next hq => exact (Int.ceil_le.2 (by exact_mod_cast hp.le)).trans (Int.floor_nonneg.2 hq)
    · exact Int.ceil_mono h

theorem truncate_eq_zero {q : ℚ} (h : |q| < 1) : truncate q = 0 := by
  obtain ⟨hlower, hupper⟩ := abs_lt.1 h
  rw [truncate]
  split
  · next hnonneg => exact Int.floor_eq_zero_iff.2 ⟨hnonneg, hupper⟩
  · next hneg =>
      rw [Int.ceil_eq_iff]
      exact ⟨by push_cast; linarith, by push_cast; linarith⟩

/-! ## Whole quotients -/

theorem lt_quantum_of_half_le {q : ℚ} (h : 1 / 2 ≤ |q|) : -1074 < quantum q := by
  refine (le_quantum q).lt_of_ne fun hleast => ?_
  have hfew := abs_lt_two_zpow q
  rw [← hleast] at hfew
  have : (2 : ℚ) ^ (-1074 + 53 : ℤ) ≤ 1 / 2 :=
    calc (2 : ℚ) ^ (-1074 + 53 : ℤ) ≤ 2 ^ (-1 : ℤ) :=
          zpow_le_zpow_right₀ (by norm_num) (by norm_num)
      _ = 1 / 2 := by norm_num
  exact absurd (hfew.trans_le this) (not_lt.2 h)

/-- A quotient of a dividend of 53 bits is rounded by less than one part in the
divisor, unless it is a power of two. -/
theorem half_quantum_mul_lt_one {q : ℚ} {m n : ℕ} (hm : m ≤ 2 ^ 53) (hn : 0 < n)
    (hq : q * n = m) (h : 2 ^ (quantum q + 52) < q) : 2 ^ quantum q / 2 * n < (1 : ℚ) := by
  have hpos : (0 : ℚ) < n := by exact_mod_cast hn
  have hdividend : (m : ℚ) ≤ 9007199254740992 := by exact_mod_cast hm
  have hbits := mul_lt_mul_of_pos_right h hpos
  rw [hq, zpow_add₀ (by norm_num), show (2 : ℚ) ^ (52 : ℤ) = 4503599627370496 by norm_num] at hbits
  linarith

theorem lt_floor_add_one_of_nearest {q : ℚ} {m n w : ℕ} (hm : m ≤ 2 ^ 53) (hn : 0 < n)
    (hq : q * n = m) (hlt : m < (w + 1) * n) : nearest q < w + 1 := by
  have hpos : (0 : ℚ) < n := by exact_mod_cast hn
  have hq0 : 0 ≤ q := by
    by_contra hneg
    have : q * n < 0 := mul_neg_of_neg_of_pos (not_le.1 hneg) hpos
    rw [hq] at this
    exact absurd this (not_lt.2 (by positivity))
  have hbelow : q < w + 1 := by
    refine lt_of_mul_lt_mul_right ?_ hpos.le
    rw [hq]
    exact_mod_cast hlt
  rcases lt_or_ge q (1 / 2) with hsmall | hlarge
  · have : nearest q ≤ 1 / 2 := representable_half.nearest_le hsmall.le
    have : (0 : ℚ) ≤ w := by positivity
    linarith
  have hquantum := lt_quantum_of_half_le (hlarge.trans (le_abs_self q))
  have hfull := two_zpow_le_abs (by linarith : q ≠ 0) hquantum
  rw [abs_of_nonneg hq0] at hfull
  rcases hfull.eq_or_lt with hpower | hmore
  · have hrepresentable : Representable q := by
      rw [← hpower]
      exact representable_two_zpow (by omega)
    rw [hrepresentable]
    exact hbelow
  · -- The quotient is off from `w + 1` by one part in `n`, and rounding by less.
    have herror := half_quantum_mul_lt_one hm hn hq hmore
    have hgap : q * n + 1 ≤ (w + 1) * n := by
      rw [hq]
      exact_mod_cast hlt
    have hround := (abs_le.1 (abs_sub_nearest_le q)).1
    refine lt_of_mul_lt_mul_right ?_ hpos.le
    calc nearest q * n ≤ (q + 2 ^ quantum q / 2) * n :=
          mul_le_mul_of_nonneg_right (by linarith) hpos.le
      _ < q * n + 1 := by linarith
      _ ≤ (w + 1) * n := hgap

/-- Where the dividend has no more than 53 bits, rounding a quotient does not
lift it to the next integer. -/
theorem truncate_nearest_natCast_div {m n : ℕ} (hm : m ≤ 2 ^ 53) (hn : 0 < n) :
    truncate (nearest (m / n)) = (m / n : ℕ) := by
  have hne : (n : ℚ) ≠ 0 := by positivity
  have hwhole : Representable (m / n : ℕ) := by
    refine representable_intCast (k := (m / n : ℕ)) ?_
    rw [abs_of_nonneg (by positivity)]
    exact_mod_cast (Nat.div_le_self m n).trans hm
  have hlower : ((m / n : ℕ) : ℚ) ≤ m / n := by
    rw [le_div_iff₀ (by positivity)]
    exact_mod_cast Nat.div_mul_le_self m n
  have hupper : nearest (m / n) < (m / n : ℕ) + 1 :=
    lt_floor_add_one_of_nearest hm hn (div_mul_cancel₀ _ hne)
      ((Nat.div_lt_iff_lt_mul hn).1 (Nat.lt_succ_self _))
  rw [truncate, if_pos (nearest_nonneg (by positivity)), Int.floor_eq_iff]
  exact ⟨by exact_mod_cast hwhole.le_nearest hlower, by exact_mod_cast hupper⟩

theorem truncate_nearest_div {a b : ℤ} (ha : |a| ≤ 2 ^ 53) (hb : b ≠ 0) :
    truncate (nearest (a / b)) = a.tdiv b := by
  have hm : a.natAbs ≤ 2 ^ 53 := by
    rw [Int.abs_eq_natAbs] at ha
    exact_mod_cast ha
  have habs : |(a : ℚ) / b| = a.natAbs / b.natAbs := by
    rw [abs_div, Nat.cast_natAbs, Nat.cast_natAbs, Int.cast_abs, Int.cast_abs]
  have hnat : truncate (nearest |(a : ℚ) / b|) = truncate |(a : ℚ) / b| := by
    rw [habs, truncate_nearest_natCast_div hm (Int.natAbs_pos.2 hb), truncate_natCast_div]
  rw [← truncate_div]
  rcases abs_choice ((a : ℚ) / b) with h | h
  · rwa [h] at hnat
  · rw [h, nearest_neg, truncate_neg, truncate_neg] at hnat
    exact neg_inj.1 hnat

end Sexpr

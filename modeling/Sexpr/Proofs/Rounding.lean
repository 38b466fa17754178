import Mathlib.Algebra.Order.Field.Power
import Mathlib.Data.Int.Log
import Mathlib.Data.Rat.Floor
import Mathlib.Tactic.Linarith
import Mathlib.Tactic.Positivity
import Mathlib.Tactic.Ring
import Mathlib.Tactic.NormNum

/-!
# Rounding to binary64

Every operation of binary64 arithmetic has the same form: the exact result, and
then the binary64 number nearest to it. This file is about the second half, on
rational numbers, so that nothing in it depends on how a number is stored.

The numbers near `q` lie on a grid whose spacing is a power of two, the
`quantum` of `q`: 53 bits below its leading bit, but never finer than the
smallest number there is. The nearest number is the nearest point of that grid,
and between two of them the one with the even multiple. There is no largest
number here. Beyond the range of binary64 the grid goes on, which is what
overflow is measured by.

A tie is not decided by a formula but by a condition, that of an even multiple.
At most one integer meets it, and all that is needed of rounding, that it
respects signs and order, follows from that.
-/

namespace Sexpr

/-! ## To an integer -/

/-- No integer is nearer to `x`, and in a tie it is the even one. -/
def IsNearest (k : ℤ) (x : ℚ) : Prop :=
  |x - k| < 1 / 2 ∨ |x - k| = 1 / 2 ∧ Even k

theorem IsNearest.abs_sub_le {k : ℤ} {x : ℚ} (h : IsNearest k x) : |x - k| ≤ 1 / 2 := by
  rcases h with h | ⟨h, -⟩
  · exact h.le
  · exact h.le

theorem IsNearest.unique {j k : ℤ} {x : ℚ} (hj : IsNearest j x) (hk : IsNearest k x) :
    j = k := by
  obtain ⟨hj₁, hj₂⟩ := abs_le.1 hj.abs_sub_le
  obtain ⟨hk₁, hk₂⟩ := abs_le.1 hk.abs_sub_le
  have hle : j ≤ k + 1 := by exact_mod_cast (by linarith : (j : ℚ) ≤ k + 1)
  have hge : k ≤ j + 1 := by exact_mod_cast (by linarith : (k : ℚ) ≤ j + 1)
  by_contra hne
  -- Neighbours, so `x` lies halfway between them and both would be even.
  have hodd : ¬ Even (j - k) := by
    rcases (by omega : j = k + 1 ∨ j = k - 1) with rfl | rfl <;>
      simp
  have hhalf : |x - j| = 1 / 2 ∧ |x - k| = 1 / 2 := by
    rcases (by omega : j = k + 1 ∨ j = k - 1) with rfl | rfl <;> push_cast at * <;>
      constructor <;> rw [abs_eq (by norm_num)] <;> [right; left; left; right] <;> linarith
  refine hodd (Int.even_sub.2 ⟨fun _ => ?_, fun _ => ?_⟩)
  · exact (hk.resolve_left (by rw [hhalf.2]; exact lt_irrefl _)).2
  · exact (hj.resolve_left (by rw [hhalf.1]; exact lt_irrefl _)).2

/-- The integer nearest to `x`, the even one in a tie. -/
def roundEven (x : ℚ) : ℤ :=
  if Int.fract x < 1 / 2 then ⌊x⌋
  else if 1 / 2 < Int.fract x then ⌊x⌋ + 1
  else ⌊x⌋ + ⌊x⌋ % 2

theorem isNearest_roundEven (x : ℚ) : IsNearest (roundEven x) x := by
  have hfloor := Int.floor_add_fract x
  have hnonneg := Int.fract_nonneg x
  have hlt := Int.fract_lt_one x
  rw [roundEven]
  split
  · next hbelow =>
      left
      rw [abs_lt]
      constructor <;> linarith
  · split
    · next habove =>
        left
        push_cast
        rw [abs_lt]
        constructor <;> linarith
    · next hle hge =>
        have hhalf : Int.fract x = 1 / 2 := le_antisymm (not_lt.1 hge) (not_lt.1 hle)
        right
        rcases Int.emod_two_eq_zero_or_one ⌊x⌋ with hparity | hparity
        · rw [hparity, add_zero]
          refine ⟨?_, Int.even_iff.2 hparity⟩
          rw [abs_eq (by norm_num)]
          left
          linarith
        · rw [hparity]
          refine ⟨?_, Int.even_iff.2 (by omega)⟩
          push_cast
          rw [abs_eq (by norm_num)]
          right
          linarith

theorem roundEven_eq {k : ℤ} {x : ℚ} (h : IsNearest k x) : roundEven x = k :=
  (isNearest_roundEven x).unique h

@[simp] theorem roundEven_intCast (k : ℤ) : roundEven k = k :=
  roundEven_eq (.inl (by norm_num))

theorem roundEven_neg (x : ℚ) : roundEven (-x) = -roundEven x := by
  apply roundEven_eq
  have habs : |-x - (-roundEven x : ℤ)| = |x - roundEven x| := by
    rw [← abs_neg]
    push_cast
    congr 1
    ring
  rw [IsNearest, habs, even_neg]
  exact isNearest_roundEven x

theorem roundEven_mono {x y : ℚ} (h : x ≤ y) : roundEven x ≤ roundEven y := by
  obtain ⟨hx, -⟩ := abs_le.1 (isNearest_roundEven x).abs_sub_le
  obtain ⟨-, hy⟩ := abs_le.1 (isNearest_roundEven y).abs_sub_le
  by_contra hlt
  have hstep : (roundEven y : ℚ) + 1 ≤ roundEven x := by exact_mod_cast not_le.1 hlt
  -- Then `x` and `y` are both the point halfway between.
  have heq : x = y := by linarith
  rw [heq] at hlt
  exact hlt le_rfl

theorem le_roundEven {k : ℤ} {x : ℚ} (h : (k : ℚ) ≤ x) : k ≤ roundEven x := by
  rw [← roundEven_intCast k]
  exact roundEven_mono h

theorem roundEven_le {k : ℤ} {x : ℚ} (h : x ≤ k) : roundEven x ≤ k := by
  rw [← roundEven_intCast k]
  exact roundEven_mono h

/-! ## To the grid -/

/-- The exponent of the last bit of the binary64 numbers near `q`. -/
def quantum (q : ℚ) : ℤ :=
  max (Int.log 2 |q| - 52) (-1074)

/-- The binary64 number nearest to `q`, were there no largest one. -/
def nearest (q : ℚ) : ℚ :=
  roundEven (q / 2 ^ quantum q) * 2 ^ quantum q

/-- A number that rounding leaves alone. -/
def Representable (q : ℚ) : Prop :=
  nearest q = q

theorem le_quantum (q : ℚ) : -1074 ≤ quantum q :=
  le_max_right _ _

theorem quantum_neg (q : ℚ) : quantum (-q) = quantum q := by
  rw [quantum, quantum, abs_neg]

theorem quantum_mono {p q : ℚ} (hp : 0 < p) (h : p ≤ q) : quantum p ≤ quantum q := by
  rw [quantum, quantum, abs_of_pos hp, abs_of_pos (hp.trans_le h)]
  have := Int.log_mono_right (b := 2) hp h
  omega

/-- A number has no more than 53 bits above its quantum. -/
theorem abs_lt_two_zpow (q : ℚ) : |q| < 2 ^ (quantum q + 53) := by
  have hlog := Int.lt_zpow_succ_log_self (b := 2) (by norm_num) |q|
  push_cast at hlog
  refine hlog.trans_le (zpow_le_zpow_right₀ (by norm_num) ?_)
  have : Int.log 2 |q| - 52 ≤ quantum q := le_max_left _ _
  omega

/-- And it has all of them, unless it is among the smallest. -/
theorem two_zpow_le_abs {q : ℚ} (hq : q ≠ 0) (h : -1074 < quantum q) :
    2 ^ (quantum q + 52) ≤ |q| := by
  have hlog := Int.zpow_log_le_self (b := 2) (by norm_num) (abs_pos.2 hq)
  push_cast at hlog
  have : quantum q + 52 = Int.log 2 |q| := by
    have : quantum q = max (Int.log 2 |q| - 52) (-1074) := rfl
    omega
  rw [this]
  exact hlog

theorem quantum_eq {q : ℚ} {e : ℤ} (he : -1074 ≤ e) (hlt : |q| < 2 ^ (e + 53))
    (hle : e = -1074 ∨ 2 ^ (e + 52) ≤ |q|) (hq : q ≠ 0) : quantum q = e := by
  have habs := abs_pos.2 hq
  have hupper : Int.log 2 |q| < e + 53 :=
    (Int.lt_zpow_iff_log_lt (by norm_num) habs).1 (by exact_mod_cast hlt)
  rw [quantum]
  rcases hle with rfl | hle
  · omega
  · have hlower : e + 52 ≤ Int.log 2 |q| :=
      (Int.zpow_le_iff_le_log (by norm_num) habs).1 (by exact_mod_cast hle)
    omega

@[simp] theorem nearest_zero : nearest 0 = 0 := by
  rw [nearest, zero_div]
  simp [show roundEven 0 = 0 from roundEven_intCast 0]

theorem nearest_neg (q : ℚ) : nearest (-q) = -nearest q := by
  rw [nearest, nearest, quantum_neg, neg_div, roundEven_neg]
  push_cast
  ring

theorem Representable.neg {q : ℚ} (h : Representable q) : Representable (-q) := by
  rw [Representable, nearest_neg, h]

/-- Rounding moves a number by half a quantum at most. -/
theorem abs_sub_nearest_le (q : ℚ) : |q - nearest q| ≤ 2 ^ quantum q / 2 := by
  have hpos : (0 : ℚ) < 2 ^ quantum q := by positivity
  have h := (isNearest_roundEven (q / 2 ^ quantum q)).abs_sub_le
  have hscale : q - nearest q =
      (q / 2 ^ quantum q - roundEven (q / 2 ^ quantum q)) * 2 ^ quantum q := by
    rw [nearest, sub_mul, div_mul_cancel₀ _ hpos.ne']
  rw [hscale, abs_mul, abs_of_pos hpos]
  nlinarith

/-- A number on its own grid is left alone. -/
theorem representable_of_div_eq {q : ℚ} {j : ℤ} (h : q / 2 ^ quantum q = j) : Representable q := by
  rw [Representable, nearest, h, roundEven_intCast, ← h, div_mul_cancel₀ _ (by positivity)]

/-- The grid of `k * 2 ^ e` is coarser than `2 ^ e` only if `k` takes up a bit too many,
as `2 ^ 53` does. -/
theorem eq_of_lt_quantum {k e : ℤ} (hne : k ≠ 0) (hk : |k| ≤ 2 ^ 53) (he : -1074 ≤ e)
    (h : e < quantum (k * 2 ^ e)) : |k| = 2 ^ 53 ∧ quantum (k * 2 ^ e) = e + 1 := by
  have hbig := two_zpow_le_abs (q := k * 2 ^ e) (by positivity) (he.trans_lt h)
  rw [abs_mul, abs_of_pos (by positivity : (0 : ℚ) < 2 ^ e), ← Int.cast_abs] at hbig
  have hfit : ((|k| : ℤ) : ℚ) * 2 ^ e ≤ 2 ^ (e + 53) := by
    rw [add_comm, zpow_add₀ (by norm_num)]
    exact mul_le_mul_of_nonneg_right (by exact_mod_cast hk) (by positivity)
  have hquantum : quantum (k * 2 ^ e) = e + 1 := by
    have : quantum (k * 2 ^ e) + 52 ≤ e + 53 :=
      (zpow_le_zpow_iff_right₀ (by norm_num : (1 : ℚ) < 2)).1 (hbig.trans hfit)
    omega
  refine ⟨le_antisymm hk ?_, hquantum⟩
  rw [hquantum, show e + 1 + 52 = 53 + e by ring, zpow_add₀ (by norm_num)] at hbig
  exact_mod_cast le_of_mul_le_mul_right hbig (by positivity)

/-- A number of no more than 53 bits is left alone. -/
theorem representable_of_grid {k e : ℤ} (hk : |k| ≤ 2 ^ 53) (he : -1074 ≤ e) :
    Representable (k * 2 ^ e) := by
  rcases eq_or_ne k 0 with rfl | hne
  · simp [Representable]
  rcases le_or_gt (quantum (k * 2 ^ e)) e with hle | hgt
  · refine representable_of_div_eq (j := k * 2 ^ (e - quantum (k * 2 ^ e)).toNat) ?_
    rw [mul_div_assoc, ← zpow_sub₀ (by norm_num)]
    push_cast
    rw [← zpow_natCast, Int.toNat_of_nonneg (by omega)]
  · obtain ⟨hk, hquantum⟩ := eq_of_lt_quantum hne hk he hgt
    obtain ⟨j, rfl⟩ : ∃ j, k = j * 2 := by
      rcases (abs_eq (by norm_num)).1 hk with rfl | rfl
      · exact ⟨2 ^ 52, by norm_num⟩
      · exact ⟨-2 ^ 52, by norm_num⟩
    refine representable_of_div_eq (j := j) ?_
    rw [hquantum, zpow_add₀ (by norm_num), div_eq_iff (by positivity)]
    push_cast
    ring

theorem representable_intCast {k : ℤ} (h : |k| ≤ 2 ^ 53) : Representable k := by
  simpa using representable_of_grid (e := 0) h (by norm_num)

theorem representable_two_zpow {e : ℤ} (h : -1074 ≤ e) : Representable (2 ^ e) := by
  simpa using representable_of_grid (k := 1) (by norm_num) h

theorem representable_zero : Representable 0 :=
  nearest_zero

theorem representable_half : Representable (1 / 2) := by
  simpa using representable_two_zpow (e := -1) (by norm_num)

theorem abs_div_quantum_lt (q : ℚ) : |q / 2 ^ quantum q| < 2 ^ 53 := by
  have h := abs_lt_two_zpow q
  rw [zpow_add₀ (by norm_num), mul_comm] at h
  rw [abs_div, abs_of_pos (by positivity : (0 : ℚ) < 2 ^ quantum q),
    div_lt_iff₀ (by positivity)]
  exact_mod_cast h

theorem abs_roundEven_quantum_le (q : ℚ) : |roundEven (q / 2 ^ quantum q)| ≤ 2 ^ 53 := by
  obtain ⟨hlower, hupper⟩ := abs_lt.1 (abs_div_quantum_lt q)
  rw [abs_le]
  constructor
  · exact le_roundEven (by push_cast; exact hlower.le)
  · exact roundEven_le (by push_cast; exact hupper.le)

theorem two_pow_le_roundEven {q : ℚ} (hq : 0 < q) (h : -1074 < quantum q) :
    2 ^ 52 ≤ roundEven (q / 2 ^ quantum q) := by
  have hbits := two_zpow_le_abs hq.ne' h
  rw [abs_of_pos hq, zpow_add₀ (by norm_num), mul_comm] at hbits
  refine le_roundEven ((le_div_iff₀ (by positivity)).2 ?_)
  exact_mod_cast hbits

/-- Rounding twice is rounding once. -/
theorem representable_nearest (q : ℚ) : Representable (nearest q) :=
  representable_of_grid (abs_roundEven_quantum_le q) (le_quantum q)

/-! ## Order -/

theorem nearest_nonneg {q : ℚ} (h : 0 ≤ q) : 0 ≤ nearest q := by
  have : 0 ≤ roundEven (q / 2 ^ quantum q) := le_roundEven (by push_cast; positivity)
  rw [nearest]
  positivity

theorem nearest_mono_of_pos {p q : ℚ} (hp : 0 < p) (h : p ≤ q) : nearest p ≤ nearest q := by
  rcases (quantum_mono hp h).eq_or_lt with heq | hlt
  · rw [nearest, nearest, heq]
    have : roundEven (p / 2 ^ quantum q) ≤ roundEven (q / 2 ^ quantum q) :=
      roundEven_mono (div_le_div_of_nonneg_right h (by positivity))
    exact mul_le_mul_of_nonneg_right (by exact_mod_cast this) (by positivity)
  · -- Between the two lies a power of two, on both grids.
    have hq := hp.trans_le h
    calc nearest p ≤ 2 ^ 53 * 2 ^ quantum p := by
          have := (abs_le.1 (abs_roundEven_quantum_le p)).2
          exact mul_le_mul_of_nonneg_right (by exact_mod_cast this) (by positivity)
      _ = 2 ^ (quantum p + 53) := by
          rw [zpow_add₀ (by norm_num), mul_comm]
          norm_cast
      _ ≤ 2 ^ (quantum q + 52) := zpow_le_zpow_right₀ (by norm_num) (by omega)
      _ = 2 ^ 52 * 2 ^ quantum q := by
          rw [zpow_add₀ (by norm_num), mul_comm]
          norm_cast
      _ ≤ nearest q := by
          have := two_pow_le_roundEven hq ((le_quantum p).trans_lt hlt)
          exact mul_le_mul_of_nonneg_right (by exact_mod_cast this) (by positivity)

theorem nearest_mono {p q : ℚ} (h : p ≤ q) : nearest p ≤ nearest q := by
  rcases lt_trichotomy 0 p with hp | rfl | hp
  · exact nearest_mono_of_pos hp h
  · rw [nearest_zero]
    exact nearest_nonneg h
  · rcases le_or_gt 0 q with hq | hq
    · have := nearest_nonneg (neg_nonneg.2 hp.le)
      rw [nearest_neg] at this
      linarith [nearest_nonneg hq]
    · have := nearest_mono_of_pos (neg_pos.2 hq) (neg_le_neg h)
      rw [nearest_neg, nearest_neg] at this
      exact neg_le_neg_iff.1 this

theorem Representable.le_nearest {p q : ℚ} (hp : Representable p) (h : p ≤ q) :
    p ≤ nearest q :=
  hp.symm.trans_le (nearest_mono h)

theorem Representable.nearest_le {p q : ℚ} (hq : Representable q) (h : p ≤ q) :
    nearest p ≤ q :=
  (nearest_mono h).trans_eq hq

/-- Rounding does not cross zero or the other way, but small numbers may be
rounded to it. -/
theorem abs_nearest (q : ℚ) : |nearest q| = nearest |q| := by
  rcases le_total 0 q with h | h
  · rw [abs_of_nonneg h, abs_of_nonneg (nearest_nonneg h)]
  · have hneg := nearest_nonneg (neg_nonneg.2 h)
    rw [abs_of_nonpos h, nearest_neg, abs_of_nonpos]
    rw [nearest_neg] at hneg
    exact neg_nonneg.1 hneg

end Sexpr

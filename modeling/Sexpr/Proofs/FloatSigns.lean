import Sexpr.Proofs.FloatArithmetic

/-!
# Signs of floats

A float is what it unpacks to (`unpacked_inj`), so two of them are the same if they
agree in kind, sign, significand and exponent, and there is one NaN. To negate a float is
to change its sign and nothing else, and rounding pays no heed to signs. So to
subtract is to add the negative, and a sum of negatives is the negative of the sum.

There is one exception to this. A sum that comes to nothing is the positive zero
whatever the signs of the summands, unless both of them are the negative zero
(`add_eq_negative_zero_iff`). Where a sum is zero, the two ways to compute it may
differ in the sign, though in no more than that.
-/

namespace Sexpr

open Float.Model Float.Model.UnpackedFloat

namespace Binary64

variable {x y : Float}

/-! ## Floats and what they unpack to -/

theorem ofModel_pack_unpacked (x : Float) : Float.ofModel (.pack (unpacked x)) = x :=
  congrArg Float.ofModel (pack_unpack x.toModel)

theorem unpacked_inj : unpacked x = unpacked y ↔ x = y := by
  constructor
  · intro h
    rw [← ofModel_pack_unpacked x, h, ofModel_pack_unpacked]
  · rintro rfl
    rfl

theorem stored_unpacked (x : Float) : stored (unpacked x) = unpacked x := by
  have h := unpack_pack (canonical_unpack x.toModel)
  rw [pack_unpack] at h
  exact h.symm

theorem stored_neg (u : UnpackedFloat) : stored u.neg = (stored u).neg := by
  cases u with
  | finite sign m e hpos =>
      simp only [UnpackedFloat.neg, stored]
      split <;> rfl
  | infinity | notANumber | zero => rfl

theorem Canonical.neg {u : UnpackedFloat} (h : Canonical u) : Canonical u.neg := by
  cases u with
  | finite => exact h
  | infinity | notANumber | zero => trivial

theorem unpacked_neg (x : Float) : unpacked (-x) = (unpacked x).neg := by
  have hneg : unpacked (-x) = stored (unpacked x).neg :=
    unpack_pack (canonical_unpack x.toModel).neg
  rw [hneg, stored_neg, stored_unpacked]

theorem neg_neg_sign (s : Sign) : - -s = s := by
  cases s <;> rfl

theorem float_neg_neg (x : Float) : - -x = x := by
  rw [← unpacked_inj, unpacked_neg, unpacked_neg]
  cases unpacked x <;> simp only [UnpackedFloat.neg, neg_neg_sign]

/-! ## Sums -/

theorem canonical_add {u v : UnpackedFloat} (hu : Canonical u) (hv : Canonical v) :
    Canonical (UnpackedFloat.add Format.binary64 u v) := by
  cases u with
  | notANumber => trivial
  | infinity s =>
      cases v with
      | infinity t => cases s <;> cases t <;> trivial
      | notANumber | zero | finite => trivial
  | zero s =>
      cases v with
      | zero t => cases s <;> cases t <;> trivial
      | finite => exact hv
      | notANumber | infinity => trivial
  | finite =>
      cases v with
      | zero => exact hu
      | finite => exact (normalize_spec _ _ _).1
      | notANumber | infinity => trivial

theorem unpacked_add (x y : Float) :
    unpacked (x + y) = stored (UnpackedFloat.add Format.binary64 (unpacked x) (unpacked y)) :=
  unpack_pack (canonical_add (canonical_unpack _) (canonical_unpack _))

theorem apply_neg_sign (s : Sign) (n : ℤ) : (-s).apply n = -s.apply n := by
  cases s
  · exact (neg_neg n).symm
  · rfl

/-- To subtract is to add the negative. -/
theorem sub_eq_add (u v : UnpackedFloat) :
    UnpackedFloat.sub Format.binary64 u v = UnpackedFloat.add Format.binary64 u v.neg := by
  cases u with
  | notANumber => rfl
  | infinity s =>
      cases v with
      | infinity t => cases s <;> cases t <;> rfl
      | notANumber | zero | finite => rfl
  | zero s =>
      cases v with
      | zero t => cases s <;> cases t <;> rfl
      | notANumber | infinity | finite => rfl
  | finite s₁ m₁ e₁ =>
      cases v with
      | finite s₂ m₂ e₂ =>
          simp only [UnpackedFloat.sub, UnpackedFloat.add, UnpackedFloat.neg, apply_neg_sign,
            sub_eq_add_neg]
      | notANumber | infinity | zero => rfl

theorem float_sub_eq_add_neg (x y : Float) : x - y = x + -y := by
  have hsub : x - y = Float.ofModel (.pack
      (UnpackedFloat.sub Format.binary64 (unpacked x) (unpacked y))) := rfl
  rw [hsub, sub_eq_add, ← unpacked_neg]
  rfl

theorem roundWithAccuracy_neg (s : Sign) (m : ℕ) (e : ℤ) (accuracy : Accuracy) :
    roundWithAccuracy Format.binary64 (-s) m e accuracy =
      (roundWithAccuracy Format.binary64 s m e accuracy).neg := by
  simp only [roundWithAccuracy]
  split <;> rfl

theorem normalize_neg {n : ℤ} (hn : n ≠ 0) (e : ℤ) (zeroSign : Sign) :
    UnpackedFloat.normalize Format.binary64 (-n) e zeroSign =
      (UnpackedFloat.normalize Format.binary64 n e zeroSign).neg := by
  rcases lt_or_gt_of_ne hn with hneg | hpos
  · rw [UnpackedFloat.normalize, UnpackedFloat.normalize, compare_lt_iff_lt.2 hneg,
      compare_gt_iff_gt.2 (neg_pos.2 hneg)]
    exact roundWithAccuracy_neg .negative _ _ _
  · rw [UnpackedFloat.normalize, UnpackedFloat.normalize, compare_gt_iff_gt.2 hpos,
      compare_lt_iff_lt.2 (neg_lt_zero.2 hpos), neg_neg]
    exact roundWithAccuracy_neg .positive _ _ _

/-- A sum of negatives is the negative of the sum, but for the sign of a zero. -/
theorem add_neg_neg (u v : UnpackedFloat) :
    UnpackedFloat.add Format.binary64 u.neg v.neg =
        (UnpackedFloat.add Format.binary64 u v).neg ∨
      (∃ s, UnpackedFloat.add Format.binary64 u v = .zero s) ∧
        ∃ s, UnpackedFloat.add Format.binary64 u.neg v.neg = .zero s := by
  cases u with
  | notANumber => exact .inl rfl
  | infinity s =>
      cases v with
      | infinity t => cases s <;> cases t <;> exact .inl rfl
      | notANumber | zero | finite => exact .inl rfl
  | zero s =>
      cases v with
      | zero t => cases s <;> cases t <;> exact .inr ⟨⟨_, rfl⟩, ⟨_, rfl⟩⟩
      | notANumber | infinity | finite => exact .inl rfl
  | finite s₁ m₁ e₁ =>
      cases v with
      | notANumber | infinity | zero => exact .inl rfl
      | finite s₂ m₂ e₂ =>
          simp only [UnpackedFloat.add, UnpackedFloat.neg, apply_neg_sign, ← neg_add]
          generalize s₁.apply _ + s₂.apply _ = n
          by_cases hn : n = 0
          · subst hn
            exact .inr ⟨⟨.positive, rfl⟩, ⟨.positive, rfl⟩⟩
          · exact .inl (normalize_neg hn _ _)

/-! ## Zeros -/

theorem beq_zero_iff : (x == 0.0) = true ↔ ∃ sign, unpacked x = .zero sign := by
  change (unpacked x).beq (.zero .positive) = true ↔ _
  cases unpacked x with
  | zero sign => exact ⟨fun _ => ⟨sign, rfl⟩, fun _ => rfl⟩
  | notANumber => exact ⟨nofun, nofun⟩
  | infinity sign | finite sign => cases sign <;> exact ⟨nofun, nofun⟩

theorem beq_zero_neg (x : Float) : (-x == 0.0) = (x == 0.0) := by
  rw [Bool.eq_iff_iff, beq_zero_iff, beq_zero_iff, unpacked_neg]
  cases unpacked x with
  | zero sign => exact ⟨fun _ => ⟨sign, rfl⟩, fun _ => ⟨-sign, rfl⟩⟩
  | notANumber | infinity | finite => exact ⟨nofun, nofun⟩

theorem unpacked_negative_zero : unpacked (-0.0) = .zero .negative :=
  unpacked_neg 0.0

/-- Zeros of different signs are equal numbers but not the same value. -/
theorem zero_ne_negative_zero : (0.0 : Float) ≠ -0.0 := by
  decide +kernel

/-- Either zero is one of the two. -/
theorem eq_of_beq_zero (h : (x == 0.0) = true) : x = 0.0 ∨ x = -0.0 := by
  obtain ⟨sign, hsign⟩ := beq_zero_iff.1 h
  cases sign with
  | positive => exact .inl (unpacked_inj.1 hsign)
  | negative => exact .inr (unpacked_inj.1 (hsign.trans unpacked_negative_zero.symm))

theorem neg_ne_of_beq_zero (h : (x == 0.0) = true) : -x ≠ x := by
  rcases eq_of_beq_zero h with rfl | rfl
  · exact zero_ne_negative_zero.symm
  · rw [float_neg_neg]
    exact zero_ne_negative_zero

theorem neg_add_eq (x y : Float) :
    -(x + y) = -x + -y ∨ (x + y == 0.0) = true ∧ (-x + -y == 0.0) = true := by
  rcases add_neg_neg (unpacked x) (unpacked y) with h | ⟨⟨s, hs⟩, ⟨t, ht⟩⟩
  · left
    rw [← unpacked_inj, unpacked_add, unpacked_neg, unpacked_neg, unpacked_neg, h, unpacked_add,
      stored_neg]
  · right
    rw [beq_zero_iff, beq_zero_iff, unpacked_add, unpacked_add, unpacked_neg, unpacked_neg, hs, ht]
    exact ⟨⟨s, rfl⟩, ⟨t, rfl⟩⟩

theorem add_beq_zero (hx : (x == 0.0) = true) (hy : (y == 0.0) = true) :
    (x + y == 0.0) = true := by
  obtain ⟨s, hx⟩ := beq_zero_iff.1 hx
  obtain ⟨t, hy⟩ := beq_zero_iff.1 hy
  rw [beq_zero_iff, unpacked_add, hx, hy]
  cases s <;> cases t <;> exact ⟨_, rfl⟩

/-- A zero adds nothing to what is not zero. -/
theorem zero_add_eq (hx : (x == 0.0) = true) (hy : (y == 0.0) = false) : x + y = y := by
  obtain ⟨s, hx⟩ := beq_zero_iff.1 hx
  have hsome : ∀ t, unpacked y ≠ .zero t := fun t ht =>
    absurd (beq_zero_iff.2 ⟨t, ht⟩) (Bool.eq_false_iff.1 hy)
  have hsum : UnpackedFloat.add Format.binary64 (unpacked x) (unpacked y) = unpacked y := by
    rw [hx]
    generalize unpacked y = v at hsome
    cases v with
    | zero t => exact absurd rfl (hsome t)
    | notANumber | infinity | finite => rfl
  rw [← unpacked_inj, unpacked_add, hsum, stored_unpacked]

/-- No number that is not zero is so small that it is rounded to zero, if it is a
multiple of the least one. -/
theorem nearest_mul_ne_zero {n e : ℤ} (hn : n ≠ 0) (he : -1074 ≤ e) :
    nearest (n * 2 ^ e) ≠ 0 := by
  have hone : (1 : ℚ) ≤ |(n : ℚ)| := by
    rw [← Int.cast_abs]
    exact_mod_cast Int.one_le_abs hn
  have hlarge : (2 : ℚ) ^ e ≤ |nearest (n * 2 ^ e)| := by
    rw [abs_nearest]
    refine (representable_two_zpow he).le_nearest ?_
    rw [abs_mul, abs_of_pos (by positivity : (0 : ℚ) < 2 ^ e)]
    exact le_mul_of_one_le_left (by positivity) hone
  intro hzero
  rw [hzero, abs_zero] at hlarge
  exact absurd hlarge (not_le.2 (by positivity))

theorem stored_normalize_ne {n e : ℤ} (he : -1074 ≤ e) :
    stored (UnpackedFloat.normalize Format.binary64 n e .positive) ≠ .zero .negative := by
  intro h
  rcases eq_or_ne n 0 with rfl | hn
  · cases h
  · have hvalue := (normalize_spec n e .positive).2
    generalize UnpackedFloat.normalize Format.binary64 n e .positive = u at h hvalue
    cases u with
    | zero => exact absurd hvalue (nearest_mul_ne_zero hn he)
    | finite =>
        rw [stored] at h
        split at h <;> cases h
    | infinity | notANumber => exact hvalue.elim

/-- Only a sum of two negative zeros is the negative zero. -/
theorem add_eq_negative_zero_iff : x + y = -0.0 ↔ x = -0.0 ∧ y = -0.0 := by
  rw [← unpacked_inj, ← unpacked_inj, ← unpacked_inj, unpacked_add, unpacked_negative_zero]
  have hx : Canonical (unpacked x) := canonical_unpack _
  have hy : Canonical (unpacked y) := canonical_unpack _
  have hx' := stored_unpacked x
  have hy' := stored_unpacked y
  generalize unpacked x = u at hx hx'
  generalize unpacked y = v at hy hy'
  cases u with
  | notANumber => exact ⟨nofun, nofun⟩
  | infinity s =>
      cases v with
      | infinity t => cases s <;> cases t <;> exact ⟨nofun, nofun⟩
      | notANumber | zero | finite => exact ⟨nofun, nofun⟩
  | zero s =>
      cases v with
      | zero t =>
          cases s with
          | negative =>
              cases t with
              | negative => exact ⟨fun _ => ⟨rfl, rfl⟩, fun _ => rfl⟩
              | positive => exact ⟨nofun, nofun⟩
          | positive => cases t <;> exact ⟨nofun, nofun⟩
      | finite => exact ⟨fun h => (nomatch hy'.symm.trans h), nofun⟩
      | notANumber | infinity => exact ⟨nofun, nofun⟩
  | finite s₁ m₁ e₁ =>
      cases v with
      | notANumber | infinity => exact ⟨nofun, nofun⟩
      | zero => exact ⟨fun h => (nomatch hx'.symm.trans h), nofun⟩
      | finite s₂ m₂ e₂ =>
          refine ⟨fun h => absurd h (stored_normalize_ne ?_), nofun⟩
          exact le_min hx.2.1 hy.2.1

end Binary64

end Sexpr

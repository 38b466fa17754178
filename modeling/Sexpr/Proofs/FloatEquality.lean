import Sexpr.Proofs.FloatSigns

/-!
# Floats that compare equal

Comparing floats for equality is almost asking whether they are the same, and there are two
exceptions. What is no number is not equal to itself, and the two zeros are equal though
they differ in their sign. Nothing else about floats is needed to see that the comparison
is symmetric and transitive.
-/

namespace Sexpr

open Float.Model

namespace Binary64

variable {x y z : Float}

theorem compare_sign_eq_iff {s t : UnpackedFloat.Sign} : compare s t = .eq ↔ s = t := by
  cases s with
  | negative =>
      cases t with
      | negative => exact iff_of_true rfl rfl
      | positive => exact iff_of_false nofun nofun
  | positive =>
      cases t with
      | negative => exact iff_of_false nofun nofun
      | positive => exact iff_of_true rfl rfl

/-- Two unpacked numbers compare equal if they are one number, or both are zeros. -/
theorem beq_unpacked_iff {u v : UnpackedFloat} :
    u.beq v = true ↔
      u = v ∧ u.isNaN = false ∨ (∃ sign, u = .zero sign) ∧ ∃ sign, v = .zero sign := by
  rw [UnpackedFloat.beq, beq_iff_eq]
  cases u with
  | notANumber => simp [UnpackedFloat.compare, UnpackedFloat.isNaN]
  | infinity s =>
      cases v with
      | infinity t =>
          simp [UnpackedFloat.compare, UnpackedFloat.isNaN, compare_sign_eq_iff]
      | notANumber | zero | finite => cases s <;> simp [UnpackedFloat.compare]
  | zero s =>
      cases v with
      | zero t => simp [UnpackedFloat.compare]
      | notANumber => simp [UnpackedFloat.compare]
      | infinity t | finite t => cases t <;> simp [UnpackedFloat.compare]
  | finite s m e hm =>
      cases v with
      | notANumber => simp [UnpackedFloat.compare]
      | infinity t => cases t <;> simp [UnpackedFloat.compare]
      | zero t => cases s <;> simp [UnpackedFloat.compare]
      | finite t n f hn =>
          have hsame : (compare e f).then (compare m n) = .eq ↔ m = n ∧ e = f := by
            rw [Ordering.then_eq_eq, compare_eq_iff_eq, compare_eq_iff_eq, and_comm]
          cases s <;> cases t <;> simp [UnpackedFloat.compare, UnpackedFloat.isNaN, hsame]

theorem beq_iff :
    (x == y) = true ↔ x = y ∧ x.isNaN = false ∨ (x == 0.0) = true ∧ (y == 0.0) = true := by
  rw [beq_zero_iff, beq_zero_iff, ← unpacked_inj]
  exact beq_unpacked_iff

theorem isNaN_of_beq_zero (h : (x == 0.0) = true) : x.isNaN = false := by
  obtain ⟨sign, hsign⟩ := beq_zero_iff.1 h
  show (unpacked x).isNaN = false
  rw [hsign]
  rfl

/-- A float is equal to itself unless it is no number. -/
theorem beq_self_iff : (x == x) = true ↔ x.isNaN = false := by
  rw [beq_iff]
  constructor
  · rintro (⟨-, h⟩ | ⟨h, -⟩)
    · exact h
    · exact isNaN_of_beq_zero h
  · intro h
    exact .inl ⟨rfl, h⟩

theorem beq_symm (h : (x == y) = true) : (y == x) = true := by
  rw [beq_iff] at h ⊢
  rcases h with ⟨rfl, h⟩ | ⟨hx, hy⟩
  · exact .inl ⟨rfl, h⟩
  · exact .inr ⟨hy, hx⟩

theorem beq_trans (hxy : (x == y) = true) (hyz : (y == z) = true) : (x == z) = true := by
  rcases beq_iff.1 hxy with ⟨rfl, -⟩ | ⟨hx, hy⟩
  · exact hyz
  · rcases beq_iff.1 hyz with ⟨rfl, -⟩ | ⟨-, hz⟩
    · exact hxy
    · exact beq_iff.2 (.inr ⟨hx, hz⟩)

end Binary64

end Sexpr

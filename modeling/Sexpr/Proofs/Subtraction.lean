import Sexpr.Proofs.Application
import Sexpr.Proofs.FloatSigns
import Sexpr.Proofs.Returns

/-!
# Subtraction by adding to the negative

What is subtracted is added to the negative of the first operand, and the sign is
changed back in the end. The total is then the negative of the difference at every
step, because a sum of negatives is the negative of the sum, rounded or not. That
fails only where a difference comes to be zero. From there on the two are zero
together, or each is again the negative of the other.

So the result is the difference itself, unless that is zero. A zero has come
about by adding, and such a zero is positive if anything but negative zeros has been
added; as the sign is changed behind it, the result is the negative zero. Subtracting
a number from itself is what shows this most plainly.
-/

namespace Sexpr

open Binary64

/-- The first number less the others, from left to right. -/
def difference (first : Float) (others : List Float) : Float :=
  others.foldl (· - ·) first

/-- The total that a difference is computed by is its negative, or both are zero. -/
def Opposed (total difference : Float) : Prop :=
  total = -difference ∨ (total == 0.0) = true ∧ (difference == 0.0) = true

section

variable {total rest x : Float}

/-- One number is added to the total and subtracted from the difference. -/
theorem Opposed.step (h : Opposed total rest) (x : Float) : Opposed (total + x) (rest - x) := by
  rw [float_sub_eq_add_neg]
  rcases h with rfl | ⟨htotal, hrest⟩
  · rcases neg_add_eq rest (-x) with heq | ⟨hdifference, htotal⟩
    · left
      rw [heq, float_neg_neg]
    · right
      rw [float_neg_neg] at htotal
      exact ⟨htotal, hdifference⟩
  · cases hx : x == 0.0 with
    | true => exact .inr ⟨add_beq_zero htotal hx, add_beq_zero hrest ((beq_zero_neg x).trans hx)⟩
    | false =>
        left
        rw [zero_add_eq htotal hx, zero_add_eq hrest ((beq_zero_neg x).trans hx), float_neg_neg]

theorem Opposed.foldl (h : Opposed total rest) (others : List Float) :
    Opposed (others.foldl (· + ·) total) (difference rest others) := by
  induction others generalizing total rest with
  | nil => exact h
  | cons x others ih => exact ih (h.step x)

/-- The total begins as the negative of the first number, which has been added to zero. -/
theorem opposed_start (first : Float) : Opposed (-(0.0 + first)) first := by
  have hzero : ((0.0 : Float) == 0.0) = true := rfl
  cases hfirst : first == 0.0 with
  | true => exact .inr ⟨(beq_zero_neg _).trans (add_beq_zero hzero hfirst), hfirst⟩
  | false =>
      left
      rw [zero_add_eq hzero hfirst]

/-! ## The sign of a zero -/

theorem foldl_add_eq_negative_zero_iff (others : List Float) :
    others.foldl (· + ·) total = -0.0 ↔ total = -0.0 ∧ ∀ x ∈ others, x = -0.0 := by
  induction others generalizing total with
  | nil => simp
  | cons x others ih =>
      rw [List.foldl_cons, ih, add_eq_negative_zero_iff, List.forall_mem_cons, and_assoc]

theorem start_eq_negative_zero_iff (first : Float) :
    -(0.0 + first) = -0.0 ↔ (first == 0.0) = true := by
  have hzero : ((0.0 : Float) == 0.0) = true := rfl
  cases hfirst : first == 0.0 with
  | true =>
      have hpositive : 0.0 + first ≠ -0.0 := fun h =>
        zero_ne_negative_zero (add_eq_negative_zero_iff.1 h).1
      rw [(eq_of_beq_zero (add_beq_zero hzero hfirst)).resolve_right hpositive]
      exact iff_of_true rfl rfl
  | false =>
      rw [zero_add_eq hzero hfirst]
      refine iff_of_false (fun h => ?_) Bool.false_ne_true
      rw [← float_neg_neg first, h, float_neg_neg, hzero] at hfirst
      cases hfirst

/-- What comes of changing the sign of the total. -/
theorem Opposed.neg_eq (h : Opposed total rest) :
    -total = if rest == 0.0 then (if total = -0.0 then 0.0 else -0.0) else rest := by
  cases hrest : rest == 0.0 with
  | false =>
      obtain rfl : total = -rest := h.resolve_right fun hboth => by
        rw [hrest] at hboth
        cases hboth.2
      exact float_neg_neg rest
  | true =>
      have htotal : (total == 0.0) = true := by
        rcases h with rfl | hboth
        · exact (beq_zero_neg rest).trans hrest
        · exact hboth.1
      rcases eq_of_beq_zero htotal with rfl | rfl
      · rw [if_pos rfl, if_neg zero_ne_negative_zero]
      · rw [if_pos rfl, if_pos rfl, float_neg_neg]

end

/-! ## The operator -/

theorem addInto_reals (fuel : Nat) (total : Float) (numbers : List Float) (machine : Machine) :
    Operator.addInto (eval (fuel + 1)) ⟨false, total⟩ (numbers.map .real) machine =
      .done (.ok ⟨false, numbers.foldl (· + ·) total⟩) machine := by
  induction numbers generalizing total with
  | nil => rfl
  | cons number rest ih => exact ih (total + number)

/-- The result of `-` is the difference itself, unless that is zero. Then it
is the negative zero, or the positive one if nothing but negative zeros has been
subtracted from a zero. -/
theorem returns_difference (first : Float) {others : List Float} (hothers : others ≠ [])
    (machine : Machine) :
    Returns (application .subtract ((first :: others).map .real)) machine
      (.ok (.real (if difference first others == 0.0 then
          if (first == 0.0) = true ∧ ∀ x ∈ others, x = -0.0 then 0.0 else -0.0
        else difference first others))) machine := by
  have hcount :
      Operator.subtract.arity.accepts ((first :: others).map Value.real).length = true := by
    have hsome := List.length_pos_of_ne_nil hothers
    rw [List.length_map, List.length_cons]
    exact decide_eq_true (show 2 ≤ others.length + 1 by omega)
  have hsign : others.foldl (· + ·) (-(0.0 + first)) = -0.0 ↔
      (first == 0.0) = true ∧ ∀ x ∈ others, x = -0.0 := by
    rw [foldl_add_eq_negative_zero_iff, start_eq_negative_zero_iff]
  have hrun := addInto_reals 0 (-(0.0 + first)) others machine
  have hresult := ((opposed_start first).foldl others).neg_eq
  simp only [hsign] at hresult
  refine ⟨2, ?_⟩
  rw [eval_application hcount, ← hresult]
  exact Action.bind_of_done hrun

/-- `(- 1.5 0.25 1.25)` comes to nothing, and the result is the negative zero. -/
theorem returns_difference_zero :
    Returns (application .subtract [.real 1.5, .real 0.25, .real 1.25]) ⟨.empty, .unbounded⟩
      (.ok (.real (-0.0))) ⟨.empty, .unbounded⟩ := by
  have hothers : [(0.25 : Float), 1.25] ≠ [] := List.cons_ne_nil _ _
  have hreturns := returns_difference 1.5 hothers ⟨.empty, .unbounded⟩
  have hzero : (difference 1.5 [0.25, 1.25] == 0.0) = true := by decide +kernel
  have hsign : ¬ (((1.5 : Float) == 0.0) = true ∧ ∀ x ∈ [(0.25 : Float), 1.25], x = -0.0) := by
    decide +kernel
  rw [if_pos hzero, if_neg hsign] at hreturns
  exact hreturns

/-- A number less itself is the positive zero, and the result of `-` is the other one. -/
theorem returns_subtract_not_difference :
    difference 1.5 [1.5] = 0.0 ∧
    Returns (application .subtract [.real 1.5, .real 1.5]) ⟨.empty, .unbounded⟩
      (.ok (.real (-0.0))) ⟨.empty, .unbounded⟩ ∧
    ¬ Returns (application .subtract [.real 1.5, .real 1.5]) ⟨.empty, .unbounded⟩
      (.ok (.real (difference 1.5 [1.5]))) ⟨.empty, .unbounded⟩ := by
  have hreturns : Returns (application .subtract [.real 1.5, .real 1.5]) ⟨.empty, .unbounded⟩
      (.ok (.real (-0.0))) ⟨.empty, .unbounded⟩ := ⟨2, rfl⟩
  refine ⟨by decide +kernel, hreturns, fun hdifference => ?_⟩
  have hsame := (returns_unique hreturns hdifference).1
  exact absurd (Value.real.inj (Except.ok.inj hsame)) (by decide +kernel)

end Sexpr

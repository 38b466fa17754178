import Sexpr.Proofs.Feeding
import Sexpr.Proofs.FloatSigns
import Sexpr.Proofs.IntegerArithmetic

/-!
# Division by zero

The operands of a division but the first are multiplied with each other, from left
to right and rounding as always, and the division fails if that product is zero.
So it is not quite the operands that are asked for a zero. A product of numbers
that are not zero may be so small that it becomes zero, and a product that is no
longer finite does not become zero by a zero that follows: infinity times zero is
no number.

Those are the only exceptions (`reachesZero_product_iff`). A zero makes a product zero
that was finite before it, and a product that is no number remains so.
-/

namespace Sexpr

open Float.Model Float.Model.UnpackedFloat

/-! ## Factors -/

namespace Binary64

variable {x y : Float}

/-- A finite number times zero is zero. -/
theorem mul_beq_zero (hx : x.isFinite = true) (hy : (y == 0.0) = true) : (x * y == 0.0) = true := by
  obtain ⟨sign, hy⟩ := beq_zero_iff.1 hy
  have hproduct := unpacked_mul x y
  change (unpacked x).isFinite = true at hx
  rw [hy] at hproduct
  rw [beq_zero_iff]
  generalize unpacked x = u at hx hproduct
  cases u with
  | zero other | finite other => exact ⟨other * sign, hproduct.trans (unpack_pack trivial)⟩
  | infinity | notANumber => cases hx

/-- Anything else times zero is no number. -/
theorem unpacked_mul_zero (hx : x.isFinite = false) (hy : (y == 0.0) = true) :
    unpacked (x * y) = .notANumber := by
  obtain ⟨sign, hy⟩ := beq_zero_iff.1 hy
  have hproduct := unpacked_mul x y
  change (unpacked x).isFinite = false at hx
  rw [hy] at hproduct
  generalize unpacked x = u at hx hproduct
  cases u with
  | infinity | notANumber => exact hproduct.trans (unpack_pack trivial)
  | zero | finite => cases hx

theorem unpacked_mul_of_nan (hx : unpacked x = .notANumber) : unpacked (x * y) = .notANumber := by
  have hproduct := unpacked_mul x y
  rw [hx] at hproduct
  exact hproduct.trans (unpack_pack trivial)

theorem beq_zero_floatOfInt (n : Int64) : (floatOfInt n == 0.0) = (n == 0) := by
  rw [beq_zero (.inl ⟨denotes_floatOfInt n, abs_nearest_toInt_lt_limit n⟩)]
  by_cases hn : n = 0
  · subst hn
    simp
  · have hlarge := one_le_abs_nearest_toInt hn
    have hne : nearest n.toInt ≠ 0 := by
      intro hzero
      rw [hzero, abs_zero] at hlarge
      exact absurd hlarge (by norm_num)
    rw [decide_eq_false hne, beq_eq_false_iff_ne.2 hn]

end Binary64

open Binary64

namespace Value

/-- The only numbers that count as false are those equal to zero. -/
theorem isFalsy_eq_true_iff {value : Value} :
    value.isFalsy = true ↔ ∃ x, value.number = .ok x ∧ (x == 0.0) = true := by
  cases value with
  | int n => simp [isFalsy, number, beq_zero_floatOfInt]
  | real x => simp [isFalsy, number]
  | symbol | pair | empty => simp [isFalsy, number]

end Value

/-! ## Products -/

namespace RunningTotal

/-- The product of numbers, multiplied out from left to right. -/
def productOf (values : List Value) : RunningTotal :=
  feedLast multiply product values

theorem productOf_append (first rest : List Value) :
    productOf (first ++ rest) = feedLast multiply (productOf first) rest :=
  feedLast_append first rest

theorem isZero_iff {running : RunningTotal} :
    running.isZero = true ↔ ∃ sign, unpacked running.total = .zero sign :=
  beq_zero_iff

theorem isZero_product : product.isZero = false := by
  decide +kernel

theorem multiply_of_number {value : Value} {x : Float} (h : value.number = .ok x)
    (running : RunningTotal) :
    ∃ isInt, running.multiply value = (.ok (), ⟨isInt, running.total * x⟩) :=
  accept_of_number h (· * ·) running

/-- A product that is no number stays that way. -/
theorem unpacked_feedLast_of_nan {running : RunningTotal}
    (h : unpacked running.total = .notANumber) (values : List Value) :
    unpacked (feedLast multiply running values).total = .notANumber := by
  induction values generalizing running with
  | nil => exact h
  | cons value rest ih =>
      rw [feedLast, List.foldl_cons]
      cases value with
      | int n => exact ih (unpacked_mul_of_nan h)
      | real x => exact ih (unpacked_mul_of_nan h)
      | symbol | pair | empty => exact ih h

theorem isZero_productOf_concat {first : List Value} {zero : Value}
    (hfinite : (productOf first).total.isFinite = true) (hzero : zero.isFalsy = true) :
    (productOf (first ++ [zero])).isZero = true := by
  obtain ⟨x, hx, hxzero⟩ := Value.isFalsy_eq_true_iff.1 hzero
  obtain ⟨isInt, hmultiply⟩ := multiply_of_number hx (productOf first)
  rw [productOf_append, feedLast_cons hmultiply]
  exact mul_beq_zero hfinite hxzero

/-- A product with a zero in it is zero only if the zero came in time. -/
theorem isFinite_of_isZero {first rest : List Value} {zero : Value} (hzero : zero.isFalsy = true)
    (h : (productOf (first ++ zero :: rest)).isZero = true) :
    (productOf first).total.isFinite = true := by
  by_contra hfinite
  obtain ⟨x, hx, hxzero⟩ := Value.isFalsy_eq_true_iff.1 hzero
  obtain ⟨isInt, hmultiply⟩ := multiply_of_number hx (productOf first)
  have hnan : unpacked (RunningTotal.mk isInt ((productOf first).total * x)).total = .notANumber :=
    unpacked_mul_zero (Bool.eq_false_iff.2 hfinite) hxzero
  obtain ⟨sign, hsign⟩ := isZero_iff.1 h
  rw [productOf_append, feedLast_cons hmultiply, unpacked_feedLast_of_nan hnan] at hsign
  cases hsign

/-- A product comes to be zero, behind some of the factors. -/
def ReachesZero (running : RunningTotal) (values : List Value) : Prop :=
  ∃ first, first <+: values ∧ (feedLast multiply running first).isZero = true

instance (running : RunningTotal) (values : List Value) :
    Decidable (running.ReachesZero values) :=
  decidable_of_iff (∃ first ∈ values.inits, (feedLast multiply running first).isZero = true)
    (by simp only [ReachesZero, List.mem_inits])

theorem not_reachesZero_nil {running : RunningTotal} (h : running.isZero = false) :
    ¬ running.ReachesZero [] := by
  intro ⟨first, hprefix, hzero⟩
  obtain rfl := List.prefix_nil.1 hprefix
  exact absurd hzero (Bool.eq_false_iff.1 h)

theorem reachesZero_of_isZero {running : RunningTotal} (h : running.isZero = true)
    (values : List Value) : running.ReachesZero values :=
  ⟨[], List.nil_prefix, h⟩

theorem reachesZero_cons_iff {running next : RunningTotal} {value : Value}
    (hrunning : running.isZero = false) (h : running.multiply value = (.ok (), next))
    (values : List Value) :
    running.ReachesZero (value :: values) ↔ next.ReachesZero values := by
  constructor
  · intro ⟨first, hprefix, hzero⟩
    rcases List.prefix_cons_iff.1 hprefix with rfl | ⟨rest, rfl, hrest⟩
    · exact absurd hzero (Bool.eq_false_iff.1 hrunning)
    · rw [feedLast_cons h] at hzero
      exact ⟨rest, hrest, hzero⟩
  · intro ⟨first, hprefix, hzero⟩
    refine ⟨value :: first, List.cons_prefix_cons.2 ⟨rfl, hprefix⟩, ?_⟩
    rw [feedLast_cons h]
    exact hzero

/-- When a product comes to be zero: by a zero that finds it finite, or with no zero
at all. -/
theorem reachesZero_product_iff (values : List Value) :
    product.ReachesZero values ↔
      (∃ first zero, first ++ [zero] <+: values ∧ zero.isFalsy = true ∧
        (productOf first).total.isFinite = true) ∨
      ∃ first, first <+: values ∧ (∀ value ∈ first, value.isFalsy = false) ∧
        (productOf first).isZero = true := by
  constructor
  · intro ⟨first, hfirst, hproduct⟩
    by_cases hzero : ∃ zero ∈ first, zero.isFalsy = true
    · obtain ⟨zero, hmem, hzero⟩ := hzero
      obtain ⟨before, rest, rfl⟩ := List.append_of_mem hmem
      refine .inl ⟨before, zero, ?_, hzero, isFinite_of_isZero hzero hproduct⟩
      have hbefore : before ++ [zero] <+: before ++ zero :: rest := by simp
      exact hbefore.trans hfirst
    · refine .inr ⟨first, hfirst, fun value hvalue => ?_, hproduct⟩
      exact Bool.eq_false_iff.2 fun hfalsy => hzero ⟨value, hvalue, hfalsy⟩
  · intro h
    rcases h with ⟨first, zero, hprefix, hzero, hfinite⟩ | ⟨first, hprefix, -, hproduct⟩
    · exact ⟨_, hprefix, isZero_productOf_concat hfinite hzero⟩
    · exact ⟨first, hprefix, hproduct⟩

end RunningTotal

/-! ## The divisor -/

theorem multiplyInto_cons {ev : Value → Action Value} {expression value : Value}
    {before middle : Machine} {running next : RunningTotal}
    (h : ev expression before = .done (.ok value) middle)
    (hnext : running.multiply value = (.ok (), next)) (rest : List Value) :
    Operator.multiplyInto ev running (expression :: rest) before =
      (if next.isZero then pure next else Operator.multiplyInto ev next rest :
        Action RunningTotal) middle := by
  rw [Operator.multiplyInto, Action.bind_of_done h, hnext]
  rfl

/-- What comes of multiplying operands into a product that is not zero yet. The fuel may
be more, and the product is zero in the end if it comes to be zero at all. -/
theorem multiplyInto_of_returnEach {expressions values : List Value} {before after : Machine}
    (h : ReturnEach expressions before values after)
    (hnumbers : ∀ value ∈ values, value.isNumber = true)
    {running : RunningTotal} (hrunning : running.isZero = false) :
    ∃ fuel total last,
      (∀ more, fuel ≤ more → Operator.multiplyInto (eval more) running expressions before =
        .done (.ok total) last) ∧
      (total.isZero = true ↔ running.ReachesZero values) := by
  induction h generalizing running with
  | nil =>
      refine ⟨0, running, _, fun _ _ => rfl, ?_⟩
      simp [hrunning, RunningTotal.not_reachesZero_nil]
  | @cons expression value expressions values before middle after hfirst _ ih =>
      obtain ⟨fuel, hfirst⟩ := hfirst
      obtain ⟨x, hx⟩ := Value.isNumber_iff.1 (hnumbers value List.mem_cons_self)
      obtain ⟨isInt, hnext⟩ := RunningTotal.multiply_of_number hx running
      rw [RunningTotal.reachesZero_cons_iff hrunning hnext]
      generalize RunningTotal.mk isInt (running.total * x) = next at hnext
      by_cases hzero : next.isZero = true
      · refine ⟨fuel, next, middle, fun more hmore => ?_, ?_⟩
        · rw [multiplyInto_cons (eval_mono hmore hfirst) hnext, if_pos hzero]
          rfl
        · exact ⟨fun _ => RunningTotal.reachesZero_of_isZero hzero values, fun _ => hzero⟩
      · obtain ⟨enough, total, last, hrest, htotal⟩ :=
          ih (fun other hother => hnumbers other (List.mem_cons_of_mem _ hother))
            (Bool.eq_false_iff.2 hzero)
        refine ⟨max fuel enough, total, last, fun more hmore => ?_, htotal⟩
        rw [multiplyInto_cons (eval_mono (by omega) hfirst) hnext, if_neg hzero]
        exact hrest more (by omega)

/-! ## The quotient -/

/-- A number stands for itself. -/
theorem returns_number {value : Value} (h : value.isNumber = true) (machine : Machine) :
    Returns value machine (.ok value) machine := by
  refine ⟨1, ?_⟩
  cases value with
  | int | real => rfl
  | symbol | pair | empty => cases h

theorem returnEach_numbers {values : List Value} (h : ∀ value ∈ values, value.isNumber = true)
    (machine : Machine) : ReturnEach values machine values machine := by
  induction values with
  | nil => exact .nil
  | cons value rest ih =>
      refine .cons (returns_number (h value List.mem_cons_self) machine) (ih fun other hother => ?_)
      exact h other (List.mem_cons_of_mem _ hother)

/-- A division whose first operand is a number comes out as the product of the others
has it. -/
theorem returns_divide_of_divisor {first value : Value} {others : List Value}
    {before middle after : Machine} {divisor : RunningTotal}
    (hfirst : Returns first before (.ok value) middle) (hvalue : value.isNumber = true)
    (hsome : others ≠ []) {enough : Nat}
    (hothers : ∀ more, enough ≤ more →
      Operator.multiplyInto (eval more) .product others middle = .done (.ok divisor) after) :
    ∃ dividend : RunningTotal, Returns (application .divide (first :: others)) before
      (if divisor.isZero then .error .divisionByZero
        else .ok (dividend.divide divisor).finish) after := by
  obtain ⟨fuel, hfirst⟩ := hfirst
  obtain ⟨dividend, hdividend : RunningTotal.product.multiply value = (.ok (), dividend)⟩ :=
    RunningTotal.exists_accept hvalue (· * ·) .product
  have hcount : Operator.divide.arity.accepts (first :: others).length = true :=
    decide_eq_true (two_le_length_cons first hsome)
  refine ⟨dividend, max fuel enough + 1, ?_⟩
  rw [eval_application hcount, Operator.run, evalDivide_cons]
  refine (Action.bind_of_done (eval_mono (Nat.le_max_left fuel enough) hfirst)).trans ?_
  rw [hdividend]
  refine (Action.bind_of_done (hothers _ (Nat.le_max_right fuel enough))).trans ?_
  split <;> rfl

/-- A division of numbers fails if and only if its divisor comes to be zero. -/
theorem returns_divide_iff {dividend value : Value} {divisors values : List Value}
    {before after : Machine}
    (h : ReturnEach (dividend :: divisors) before (value :: values) after)
    (hnumbers : ∀ number ∈ value :: values, number.isNumber = true) (hsome : divisors ≠ []) :
    ∃ answer last, Returns (application .divide (dividend :: divisors)) before answer last ∧
      (answer = .error .divisionByZero ↔ RunningTotal.product.ReachesZero values) ∧
      (answer ≠ .error .divisionByZero → ∃ quotient, answer = .ok quotient) := by
  obtain _ | ⟨hdividend, hdivisors⟩ := h
  obtain ⟨hvalue, hvalues⟩ := List.forall_mem_cons.1 hnumbers
  obtain ⟨enough, total, last, hrun, htotal⟩ :=
    multiplyInto_of_returnEach hdivisors hvalues RunningTotal.isZero_product
  obtain ⟨quotient, hdivide⟩ := returns_divide_of_divisor hdividend hvalue hsome hrun
  refine ⟨_, last, hdivide, Iff.trans ?_ htotal, ?_⟩
  · by_cases hzero : total.isZero = true <;> simp [hzero]
  · by_cases hzero : total.isZero = true <;> simp [hzero]

/-- A division of numbers fails if a divisor is zero that finds the product of those
before it finite, or if the product has become zero without one. Otherwise there is
a quotient. -/
theorem returns_division {dividend value : Value} {divisors values : List Value}
    {before after : Machine}
    (h : ReturnEach (dividend :: divisors) before (value :: values) after)
    (hnumbers : ∀ number ∈ value :: values, number.isNumber = true) (hsome : divisors ≠ []) :
    ∃ answer last, Returns (application .divide (dividend :: divisors)) before answer last ∧
      (answer = .error .divisionByZero ↔
        (∃ first zero, first ++ [zero] <+: values ∧ zero.isFalsy = true ∧
          (RunningTotal.productOf first).total.isFinite = true) ∨
        ∃ first, first <+: values ∧ (∀ number ∈ first, number.isFalsy = false) ∧
          (RunningTotal.productOf first).isZero = true) ∧
      (answer ≠ .error .divisionByZero → ∃ quotient, answer = .ok quotient) := by
  obtain ⟨answer, last, hreturns, hzero, hok⟩ := returns_divide_iff h hnumbers hsome
  exact ⟨answer, last, hreturns, hzero.trans (RunningTotal.reachesZero_product_iff values), hok⟩

/-- `(/ 1 3 0.0)`, where the zero comes behind another divisor. -/
theorem returns_division_by_zero :
    ∃ last, Returns (application .divide [.int 1, .int 3, .real 0.0]) ⟨.empty, .unbounded⟩
      (.error .divisionByZero) last := by
  have hnumbers : ∀ number ∈ [Value.int 1, .int 3, .real 0.0], number.isNumber = true := by
    decide
  obtain ⟨answer, last, hreturns, hzero, -⟩ := returns_division
    (returnEach_numbers hnumbers ⟨.empty, .unbounded⟩) hnumbers (by simp)
  have hthree : (RunningTotal.productOf [.int 3]).total.isFinite = true := by decide +kernel
  have hfails := hzero.2 (.inl ⟨[.int 3], .real 0.0, List.prefix_rfl, by decide +kernel, hthree⟩)
  exact ⟨last, hfails ▸ hreturns⟩

/-- Neither does every zero make a division fail nor does every failure come from a
zero: `(/ 1 1e200 1e200 0)` has a quotient, and `(/ 1 1e-200 1e-200)` has none. -/
theorem division_rounded_divisor :
    (Value.int 0).isFalsy = true ∧
    (∃ quotient last,
      Returns (application .divide [.int 1, .real 1e200, .real 1e200, .int 0])
        ⟨.empty, .unbounded⟩ (.ok quotient) last) ∧
    (¬ ∃ last,
      Returns (application .divide [.int 1, .real 1e200, .real 1e200, .int 0])
        ⟨.empty, .unbounded⟩ (.error .divisionByZero) last) ∧
    (Value.real 1e-200).isFalsy = false ∧
    ∃ last,
      Returns (application .divide [.int 1, .real 1e-200, .real 1e-200])
        ⟨.empty, .unbounded⟩ (.error .divisionByZero) last := by
  have hquotient : ∃ quotient last,
      Returns (application .divide [.int 1, .real 1e200, .real 1e200, .int 0])
        ⟨.empty, .unbounded⟩ (.ok quotient) last := by
    have hnumbers : ∀ number ∈ [Value.int 1, .real 1e200, .real 1e200, .int 0],
        number.isNumber = true := by
      decide
    obtain ⟨answer, last, hreturns, hzero, hok⟩ := returns_divide_iff
      (returnEach_numbers hnumbers ⟨.empty, .unbounded⟩) hnumbers (by simp)
    have hnever : ¬ RunningTotal.product.ReachesZero [.real 1e200, .real 1e200, .int 0] := by
      decide +kernel
    obtain ⟨quotient, rfl⟩ := hok fun hfails => hnever (hzero.1 hfails)
    exact ⟨quotient, last, hreturns⟩
  refine ⟨by decide, hquotient, ?_, by decide +kernel, ?_⟩
  · intro ⟨last, hfails⟩
    obtain ⟨quotient, other, hreturns⟩ := hquotient
    exact absurd (returns_unique hreturns hfails).1 nofun
  · have hnumbers : ∀ number ∈ [Value.int 1, .real 1e-200, .real 1e-200],
        number.isNumber = true := by
      decide
    obtain ⟨answer, last, hreturns, hzero, -⟩ := returns_divide_iff
      (returnEach_numbers hnumbers ⟨.empty, .unbounded⟩) hnumbers (by simp)
    have hfails := hzero.2 (by decide +kernel)
    exact ⟨last, hfails ▸ hreturns⟩

end Sexpr

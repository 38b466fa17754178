import Sexpr.Proofs.Division

/-!
# What a product does not look at

Once a product is zero, no more operands are evaluated. The multiplication could go
on: a finite number leaves a zero a zero, and a number that is not finite makes it
no number. So what the operands behind would have done to the total is no more than
their signs say, as long as they are finite.

There is also what they would have done to the kind of the result. A real makes it a
real, and a real that nobody has looked at does not. Integers alone are safe, for the
zero of an integer has no sign, and none of them is infinite.
-/

namespace Sexpr

open Float.Model Float.Model.UnpackedFloat

/-! ## Factors of zero -/

namespace Binary64

variable {x y : Float}

/-- Whether a float has the negative sign, as a zero may. -/
def hasNegativeSign (x : Float) : Bool :=
  match unpacked x with
  | .infinity sign | .zero sign | .finite sign .. => isNegative sign
  | .notANumber => false

theorem sign_mul_comm (s t : Sign) : s * t = t * s := by
  cases s <;> cases t <;> rfl

theorem mul_comm_unpacked (u v : UnpackedFloat) :
    UnpackedFloat.mul Format.binary64 u v = UnpackedFloat.mul Format.binary64 v u := by
  cases u with
  | notANumber => cases v <;> rfl
  | infinity | zero => cases v <;> simp only [UnpackedFloat.mul, sign_mul_comm]
  | finite =>
      cases v <;> simp only [UnpackedFloat.mul, sign_mul_comm, Nat.mul_comm, Int.add_comm]

theorem float_mul_comm (x y : Float) : x * y = y * x := by
  have hproduct (a b : Float) : a * b = Float.ofModel (.pack
      (UnpackedFloat.mul Format.binary64 (unpacked a) (unpacked b))) := rfl
  rw [hproduct, mul_comm_unpacked, ← hproduct]

theorem mul_sign (s t : Sign) : s * t = if isNegative t then -s else s := by
  cases s <;> cases t <;> rfl

/-- All that is left of a finite factor of zero is its sign. -/
theorem zero_mul_eq (hx : (x == 0.0) = true) (hy : y.isFinite = true) :
    x * y = if hasNegativeSign y then -x else x := by
  obtain ⟨sign, hx⟩ := beq_zero_iff.1 hx
  have hfactor : unpacked (x * y) = .zero (if hasNegativeSign y then -sign else sign) := by
    have hproduct := unpacked_mul x y
    change (unpacked y).isFinite = true at hy
    rw [hx] at hproduct
    rw [hasNegativeSign]
    generalize unpacked y = v at hy hproduct
    cases v with
    | zero other | finite other =>
        rw [← mul_sign]
        exact hproduct.trans (unpack_pack trivial)
    | infinity | notANumber => cases hy
  rw [← unpacked_inj, hfactor]
  split
  · rw [unpacked_neg, hx]
    rfl
  · exact hx.symm

/-- A zero times what is not finite is no number. -/
theorem unpacked_zero_mul (hx : (x == 0.0) = true) (hy : y.isFinite = false) :
    unpacked (x * y) = .notANumber := by
  rw [float_mul_comm]
  exact unpacked_mul_zero hy hx

theorem isFinite_floatOfInt (n : Int64) : (floatOfInt n).isFinite = true := by
  have hvalue := denotes_floatOfInt n
  change (unpacked (floatOfInt n)).isFinite = true
  generalize unpacked (floatOfInt n) = u at hvalue
  cases u with
  | zero | finite => rfl
  | infinity | notANumber => exact hvalue.elim

theorem hasNegativeSign_of_denotes {q : ℚ} (h : Denotes (unpacked x) q) (hq : q ≠ 0) :
    hasNegativeSign x = decide (q < 0) := by
  rw [hasNegativeSign]
  generalize unpacked x = u at h
  cases u with
  | zero => exact absurd h hq
  | finite sign m e hm =>
      obtain rfl : q = unit sign * (m * 2 ^ e) := h
      have hpos : (0 : ℚ) < m * 2 ^ e := by positivity
      cases sign with
      | negative => exact (decide_eq_true (by rw [unit]; linarith)).symm
      | positive => exact (decide_eq_false (by rw [unit]; linarith)).symm
  | infinity | notANumber => exact h.elim

theorem hasNegativeSign_floatOfInt (n : Int64) :
    hasNegativeSign (floatOfInt n) = decide (n < 0) := by
  by_cases hzero : n = 0
  · subst hzero
    rfl
  · have hlarge := one_le_abs_nearest_toInt hzero
    have hne : nearest n.toInt ≠ 0 := by
      rintro hnearest
      norm_num [hnearest] at hlarge
    rw [hasNegativeSign_of_denotes (denotes_floatOfInt n) hne, decide_eq_decide,
      Int64.lt_iff_toInt_lt]
    constructor
    · intro hneg
      by_contra hle
      exact absurd (nearest_nonneg (Int.cast_nonneg (not_lt.1 hle))) (not_le.2 hneg)
    · intro hneg
      have hle := nearest_mono (Int.cast_nonpos.2 hneg.le)
      rw [nearest_zero] at hle
      exact hle.lt_of_ne hne

end Binary64

open Binary64

namespace Value

/-- Whether a value is a number, and a finite one. -/
def isFinite : Value → Bool
  | int _ => true
  | real x => x.isFinite
  | _ => false

/-- Whether a value is a number with the negative sign. The integer zero has none. -/
def isNegative : Value → Bool
  | int n => decide (n < 0)
  | real x => hasNegativeSign x
  | _ => false

variable {value : Value} {x : Float}

theorem isNumber_of_isFinite (h : value.isFinite = true) : value.isNumber = true := by
  cases value with
  | int | real => rfl
  | symbol | pair | empty => cases h

theorem isFinite_of_kind_eq_int (h : value.kind = .int) : value.isFinite = true := by
  cases value with
  | int => rfl
  | real | symbol | pair | empty => cases h

theorem isFinite_of_number (h : value.number = .ok x) : value.isFinite = x.isFinite := by
  cases value with
  | int n =>
      cases h
      exact (isFinite_floatOfInt n).symm
  | real y =>
      cases h
      rfl
  | symbol | pair | empty => cases h

theorem isNegative_of_number (h : value.number = .ok x) :
    value.isNegative = hasNegativeSign x := by
  cases value with
  | int n =>
      cases h
      exact (hasNegativeSign_floatOfInt n).symm
  | real y =>
      cases h
      rfl
  | symbol | pair | empty => cases h

end Value

/-! ## Multiplying on behind a zero -/

namespace RunningTotal

variable {running next : RunningTotal} {value : Value} {values : List Value}

/-- A finite factor of a zero product. -/
theorem multiply_of_isZero (hzero : running.isZero = true) (hfinite : value.isFinite = true) :
    ∃ next, running.multiply value = (.ok (), next) ∧ next.isZero = true ∧
      next.total = if value.isNegative then -running.total else running.total := by
  obtain ⟨x, hx⟩ := Value.isNumber_iff.1 (Value.isNumber_of_isFinite hfinite)
  obtain ⟨isInt, hmultiply⟩ := multiply_of_number hx running
  rw [Value.isFinite_of_number hx] at hfinite
  have hproduct := zero_mul_eq hzero hfinite
  refine ⟨_, hmultiply, ?_, Value.isNegative_of_number hx ▸ hproduct⟩
  change (running.total * x == 0.0) = true
  rw [hproduct]
  split
  · exact (beq_zero_neg _).trans hzero
  · exact hzero

theorem isZero_feedLast (hzero : running.isZero = true)
    (hfinite : ∀ value ∈ values, value.isFinite = true) :
    (feedLast multiply running values).isZero = true := by
  induction values generalizing running with
  | nil => exact hzero
  | cons value rest ih =>
      obtain ⟨hvalue, hrest⟩ := List.forall_mem_cons.1 hfinite
      obtain ⟨next, hmultiply, hnext, -⟩ := multiply_of_isZero hzero hvalue
      rw [feedLast_cons hmultiply]
      exact ih hnext hrest

/-- Finite factors do no more to a zero than to change its sign, each of the
negative ones in turn. -/
theorem total_feedLast_of_isZero (hzero : running.isZero = true)
    (hfinite : ∀ value ∈ values, value.isFinite = true) :
    (feedLast multiply running values).total =
      if Even (values.countP Value.isNegative) then running.total else -running.total := by
  induction values generalizing running with
  | nil => rfl
  | cons value rest ih =>
      obtain ⟨hvalue, hrest⟩ := List.forall_mem_cons.1 hfinite
      obtain ⟨next, hmultiply, hnext, htotal⟩ := multiply_of_isZero hzero hvalue
      rw [feedLast_cons hmultiply, ih hnext hrest, htotal, List.countP_cons]
      cases value.isNegative with
      | false => rfl
      | true => simp only [if_true, Nat.even_add_one, float_neg_neg, ite_not]

/-- A factor that is not finite leaves no number. -/
theorem unpacked_feedLast_of_not_finite (hzero : running.isZero = true)
    (hnumbers : ∀ value ∈ values, value.isNumber = true)
    (hsome : ∃ value ∈ values, value.isFinite = false) :
    unpacked (feedLast multiply running values).total = .notANumber := by
  induction values generalizing running with
  | nil => simp at hsome
  | cons value rest ih =>
      obtain ⟨hvalue, hrest⟩ := List.forall_mem_cons.1 hnumbers
      cases hfinite : value.isFinite with
      | true =>
          obtain ⟨next, hmultiply, hnext, -⟩ := multiply_of_isZero hzero hfinite
          rw [feedLast_cons hmultiply]
          obtain ⟨other, hmem, hother⟩ := hsome
          rcases List.mem_cons.1 hmem with rfl | hmem
          · exact absurd hfinite (Bool.eq_false_iff.1 hother)
          · exact ih hnext hrest ⟨other, hmem, hother⟩
      | false =>
          obtain ⟨x, hx⟩ := Value.isNumber_iff.1 hvalue
          obtain ⟨isInt, hmultiply⟩ := multiply_of_number hx running
          rw [Value.isFinite_of_number hx] at hfinite
          have hnan : unpacked (RunningTotal.mk isInt (running.total * x)).total = .notANumber :=
            unpacked_zero_mul hzero hfinite
          rw [feedLast_cons hmultiply]
          exact unpacked_feedLast_of_nan hnan rest

/-- A zero product stays the same to the last bit if all further factors are finite
and the negative ones among them even in number. -/
theorem total_feedLast_eq_iff (hzero : running.isZero = true)
    (hnumbers : ∀ value ∈ values, value.isNumber = true) :
    (feedLast multiply running values).total = running.total ↔
      (∀ value ∈ values, value.isFinite = true) ∧ Even (values.countP Value.isNegative) := by
  by_cases hfinite : ∀ value ∈ values, value.isFinite = true
  · rw [total_feedLast_of_isZero hzero hfinite, ite_eq_left_iff]
    constructor
    · intro h
      refine ⟨hfinite, ?_⟩
      by_contra hodd
      exact neg_ne_of_beq_zero hzero (h hodd)
    · exact fun heven hodd => absurd heven.2 hodd
  · refine iff_of_false (fun h => ?_) fun h => hfinite h.1
    obtain ⟨sign, hsign⟩ := isZero_iff.1 hzero
    push Not at hfinite
    have hnan := unpacked_feedLast_of_not_finite hzero hnumbers
      (hfinite.imp fun _ hvalue => ⟨hvalue.1, Bool.eq_false_iff.2 hvalue.2⟩)
    rw [h, hsign] at hnan
    cases hnan

/-! ## The results -/

theorem finish_of_isZero (hzero : running.isZero = true) (hint : running.isInt = true) :
    running.finish = .int 0 := by
  rw [finish, if_pos hint, Value.int.injEq]
  rcases eq_of_beq_zero hzero with h | h
  · rw [h]
    decide +kernel
  · rw [h]
    decide +kernel

/-- What can be left out behind a zero: integers if all before were integers, and else
finite numbers, of them an even number negative. -/
theorem finish_feedLast_eq_iff (hzero : running.isZero = true)
    (hnumbers : ∀ value ∈ values, value.isNumber = true) :
    running.finish = (feedLast multiply running values).finish ↔
      if running.isInt then ∀ value ∈ values, value.kind = .int
      else (∀ value ∈ values, value.isFinite = true) ∧
        Even (values.countP Value.isNegative) := by
  have hkind : (feedLast multiply running values).isInt = true ↔
      running.isInt = true ∧ ∀ value ∈ values, value.kind = .int := isInt_feedLast hnumbers
  cases hint : running.isInt with
  | true =>
      rw [finish_of_isZero hzero hint, if_pos rfl]
      by_cases hall : ∀ value ∈ values, value.kind = .int
      · have hfinite : ∀ value ∈ values, value.isFinite = true :=
          fun value hmem => Value.isFinite_of_kind_eq_int (hall value hmem)
        rw [finish_of_isZero (isZero_feedLast hzero hfinite) (hkind.2 ⟨hint, hall⟩)]
        exact iff_of_true rfl hall
      · refine iff_of_false (fun h => ?_) hall
        rw [finish, if_neg fun hlast => hall (hkind.1 hlast).2] at h
        cases h
  | false =>
      have hlast : (feedLast multiply running values).isInt = false := by
        rw [Bool.eq_false_iff, ne_eq, hkind, hint]
        exact fun h => Bool.false_ne_true h.1
      rw [if_neg Bool.false_ne_true, ← total_feedLast_eq_iff hzero hnumbers, finish, finish, hint,
        hlast, if_neg Bool.false_ne_true, if_neg Bool.false_ne_true, Value.real.injEq, eq_comm]

/-- The same of a product that has been stopped at its first zero. -/
theorem finish_productOf_append_iff {used unused : List Value}
    (hnumbers : ∀ value ∈ used ++ unused, value.isNumber = true)
    (hstop : unused = [] ∨ (productOf used).isZero = true) :
    (productOf used).finish = (productOf (used ++ unused)).finish ↔
      (∀ value ∈ used ++ unused, value.kind = .int) ∨
      (∃ value ∈ used, value.kind = .real) ∧ (∀ value ∈ unused, value.isFinite = true) ∧
        Even (unused.countP Value.isNegative) := by
  rw [List.forall_mem_append] at hnumbers
  have hint : (productOf used).isInt = true ↔ ∀ value ∈ used, value.kind = .int :=
    (isInt_feedLast hnumbers.1).trans (and_iff_right rfl)
  have hreal : (∃ value ∈ used, value.kind = .real) ↔ ¬ ∀ value ∈ used, value.kind = .int := by
    push Not
    refine exists_congr fun value => and_congr_right fun hmem => ?_
    have hvalue := hnumbers.1 value hmem
    cases value with
    | int | real => simp [Value.kind]
    | symbol | pair | empty => cases hvalue
  rw [hreal, ← hint, List.forall_mem_append, ← hint]
  rcases hstop with rfl | hzero
  · simp
  · rw [productOf_append, finish_feedLast_eq_iff hzero hnumbers.2]
    cases (productOf used).isInt <;> simp

/-! ## Where a product is stopped -/

theorem not_reachesZero_dropLast_cons_iff (hrunning : running.isZero = false)
    (h : running.multiply value = (.ok (), next)) :
    ¬ running.ReachesZero (value :: values).dropLast ↔
      values = [] ∨ ¬ next.ReachesZero values.dropLast := by
  cases values with
  | nil => exact iff_of_true (not_reachesZero_nil hrunning) (.inl rfl)
  | cons other rest =>
      rw [List.dropLast_cons_cons, reachesZero_cons_iff hrunning h]
      exact (or_iff_right (List.cons_ne_nil _ _)).symm

/-- Numbers can be multiplied until the product is zero or there are no more. -/
theorem exists_stop (hrunning : running.isZero = false)
    (hnumbers : ∀ value ∈ values, value.isNumber = true) :
    ∃ used unused, values = used ++ unused ∧ ¬ running.ReachesZero used.dropLast ∧
      (unused = [] ∨ (feedLast multiply running used).isZero = true) := by
  induction values generalizing running with
  | nil => exact ⟨[], [], rfl, not_reachesZero_nil hrunning, .inl rfl⟩
  | cons value rest ih =>
      obtain ⟨hvalue, hrest⟩ := List.forall_mem_cons.1 hnumbers
      obtain ⟨x, hx⟩ := Value.isNumber_iff.1 hvalue
      obtain ⟨isInt, hmultiply⟩ := multiply_of_number hx running
      generalize RunningTotal.mk isInt (running.total * x) = next at hmultiply
      cases hzero : next.isZero with
      | true =>
          refine ⟨[value], rest, rfl, not_reachesZero_nil hrunning, .inr ?_⟩
          rw [feedLast_cons hmultiply]
          exact hzero
      | false =>
          obtain ⟨used, unused, rfl, hopen, hstop⟩ := ih hzero hrest
          refine ⟨value :: used, unused, rfl, ?_, ?_⟩
          · exact (not_reachesZero_dropLast_cons_iff hrunning hmultiply).2 (.inr hopen)
          · rw [feedLast_cons hmultiply]
            exact hstop

end RunningTotal

/-! ## The operator -/

/-- Operands are multiplied into a product as long as it is not zero. If it is zero
behind some of them, the others are not evaluated, whatever they are. -/
theorem multiplyInto_append {expressions values : List Value} {before after : Machine}
    (h : ReturnEach expressions before values after)
    (hnumbers : ∀ value ∈ values, value.isNumber = true)
    {running : RunningTotal} (hrunning : running.isZero = false)
    (hopen : ¬ running.ReachesZero values.dropLast) {rest : List Value}
    (hstop : rest = [] ∨ (feedLast RunningTotal.multiply running values).isZero = true) :
    ∃ fuel, ∀ more, fuel ≤ more →
      Operator.multiplyInto (eval more) running (expressions ++ rest) before =
        .done (.ok (feedLast RunningTotal.multiply running values)) after := by
  induction h generalizing running with
  | nil =>
      obtain rfl := hstop.resolve_right (Bool.eq_false_iff.1 hrunning)
      exact ⟨0, fun _ _ => rfl⟩
  | @cons expression value expressions values before middle after hfirst hothers ih =>
      obtain ⟨fuel, hfirst⟩ := hfirst
      obtain ⟨hvalue, hvalues⟩ := List.forall_mem_cons.1 hnumbers
      obtain ⟨x, hx⟩ := Value.isNumber_iff.1 hvalue
      obtain ⟨isInt, hnext⟩ := RunningTotal.multiply_of_number hx running
      rw [RunningTotal.not_reachesZero_dropLast_cons_iff hrunning hnext] at hopen
      rw [feedLast_cons hnext] at hstop ⊢
      generalize RunningTotal.mk isInt (running.total * x) = next at hnext hopen hstop ⊢
      cases hzero : next.isZero with
      | true =>
          -- The product is not zero before the last of the values, so this is the last.
          obtain rfl := hopen.resolve_right fun hnever =>
            hnever (RunningTotal.reachesZero_of_isZero hzero _)
          cases hothers
          refine ⟨fuel, fun more hmore => ?_⟩
          rw [List.cons_append, multiplyInto_cons (eval_mono hmore hfirst) hnext, if_pos hzero]
          rfl
      | false =>
          have hopen : ¬ next.ReachesZero values.dropLast := by
            rcases hopen with rfl | hopen
            · exact RunningTotal.not_reachesZero_nil hzero
            · exact hopen
          obtain ⟨enough, hrest⟩ := ih hvalues hzero hopen hstop
          refine ⟨max fuel enough, fun more hmore => ?_⟩
          rw [List.cons_append, multiplyInto_cons (eval_mono (by omega) hfirst) hnext,
            if_neg (Bool.eq_false_iff.1 hzero)]
          exact hrest more (by omega)

theorem returns_multiply_append {expressions values : List Value} {before after : Machine}
    (h : ReturnEach expressions before values after)
    (hnumbers : ∀ value ∈ values, value.isNumber = true)
    (hopen : ¬ RunningTotal.product.ReachesZero values.dropLast) {rest : List Value}
    (hstop : rest = [] ∨ (RunningTotal.productOf values).isZero = true) :
    Returns (application .multiply (expressions ++ rest)) before
      (.ok (RunningTotal.productOf values).finish) after := by
  obtain ⟨fuel, hrun⟩ := multiplyInto_append h hnumbers RunningTotal.isZero_product hopen hstop
  refine ⟨fuel + 1, ?_⟩
  rw [eval_application rfl]
  exact Action.bind_of_done (hrun fuel le_rfl)

/-- The result of `*` is the product of the operands up to the one that makes it zero.
It is the same value as the product of all of them if and only if all are integers, or
the result is a real and those behind are finite, with an even number of negative ones. -/
theorem returns_stopped_product {values : List Value}
    (hnumbers : ∀ value ∈ values, value.isNumber = true) (machine : Machine) :
    ∃ used unused, values = used ++ unused ∧
      ¬ RunningTotal.product.ReachesZero used.dropLast ∧
      (unused = [] ∨ (RunningTotal.productOf used).isZero = true) ∧
      Returns (application .multiply values) machine
        (.ok (RunningTotal.productOf used).finish) machine ∧
      ((RunningTotal.productOf used).finish = (RunningTotal.productOf values).finish ↔
        (∀ value ∈ values, value.kind = .int) ∨
        (∃ value ∈ used, value.kind = .real) ∧ (∀ value ∈ unused, value.isFinite = true) ∧
          Even (unused.countP Value.isNegative)) := by
  obtain ⟨used, unused, rfl, hopen, hstop⟩ :=
    RunningTotal.exists_stop RunningTotal.isZero_product hnumbers
  have hused : ∀ value ∈ used, value.isNumber = true :=
    fun value hmem => hnumbers value (List.mem_append_left unused hmem)
  have hreturns := returns_multiply_append (returnEach_numbers hused machine) hused hopen hstop
  exact ⟨used, unused, rfl, hopen, hstop, hreturns,
    RunningTotal.finish_productOf_append_iff hnumbers hstop⟩

/-- `(* 0.0 -1.5)` is the positive zero, as the sign of what follows is not looked at. -/
theorem returns_stopped_product_negative :
    Returns (application .multiply [.real 0.0, .real (-1.5)]) ⟨.empty, .unbounded⟩
      (.ok (.real 0.0)) ⟨.empty, .unbounded⟩ ∧
    (RunningTotal.productOf [.real 0.0, .real (-1.5)]).finish ≠ .real 0.0 := by
  have hnumbers : ∀ value ∈ [Value.real 0.0, .real (-1.5)], value.isNumber = true := by
    decide
  obtain ⟨used, unused, hsplit, hopen, hstop, hreturns, hsame⟩ :=
    returns_stopped_product hnumbers ⟨.empty, .unbounded⟩
  obtain ⟨rfl, rfl⟩ : used = [.real 0.0] ∧ unused = [.real (-1.5)] := by
    rcases List.cons_eq_append_iff.1 hsplit with ⟨rfl, rfl⟩ | ⟨used, rfl, hrest⟩
    · exact absurd hstop (by decide +kernel)
    · rcases List.cons_eq_append_iff.1 hrest with ⟨rfl, rfl⟩ | ⟨used, rfl, hnone⟩
      · exact ⟨rfl, rfl⟩
      · obtain ⟨rfl, -⟩ := List.append_eq_nil_iff.1 hnone.symm
        exact absurd (by decide +kernel) hopen
  have hzero : (RunningTotal.productOf [.real 0.0]).finish = .real 0.0 := by decide +kernel
  rw [hzero] at hreturns hsame
  exact ⟨hreturns, fun h => absurd (hsame.1 h.symm) (by decide +kernel)⟩

/-- `(* 0 1.5)` is the integer zero, and the product is a real. -/
theorem returns_multiply_not_product :
    (RunningTotal.productOf [.int 0, .real 1.5]).finish = .real 0.0 ∧
    Returns (application .multiply [.int 0, .real 1.5]) ⟨.empty, .unbounded⟩
      (.ok (.int 0)) ⟨.empty, .unbounded⟩ ∧
    ¬ Returns (application .multiply [.int 0, .real 1.5]) ⟨.empty, .unbounded⟩
      (.ok (RunningTotal.productOf [.int 0, .real 1.5]).finish) ⟨.empty, .unbounded⟩ := by
  have hproduct : (RunningTotal.productOf [.int 0, .real 1.5]).finish = .real 0.0 := by
    decide +kernel
  have hreturns : Returns (application .multiply [.int 0, .real 1.5]) ⟨.empty, .unbounded⟩
      (.ok (.int 0)) ⟨.empty, .unbounded⟩ := by
    have hzero : (RunningTotal.productOf [.int 0]).finish = .int 0 := by decide +kernel
    have hnumbers : ∀ value ∈ [Value.int 0], value.isNumber = true := by decide
    have hstop : [Value.real 1.5] = [] ∨ (RunningTotal.productOf [.int 0]).isZero = true :=
      .inr (by decide +kernel)
    have hreturns := returns_multiply_append (returnEach_numbers hnumbers ⟨.empty, .unbounded⟩)
      hnumbers (RunningTotal.not_reachesZero_nil RunningTotal.isZero_product) hstop
    rw [hzero] at hreturns
    exact hreturns
  refine ⟨hproduct, hreturns, fun hall => ?_⟩
  rw [hproduct] at hall
  have hsame := (returns_unique hreturns hall).1
  cases hsame

end Sexpr

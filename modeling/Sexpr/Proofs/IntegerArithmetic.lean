import Mathlib.Algebra.BigOperators.Ring.List
import Sexpr.Proofs.Application
import Sexpr.Proofs.FloatArithmetic
import Sexpr.Proofs.Returns

/-!
# Arithmetic on integers

The four operators compute in binary64 arithmetic, also where all operands are
integers. An integer of more than 53 bits is rounded when it comes in, and so is
each partial result, from left to right. What this gives is a fold
(`roundedFold`), and the result of the operator is that fold's, cut off at the
point and held at the limits.

Nothing else goes wrong. A sum never goes out of range, however many operands it
has: far below the limit it is so great that one more integer rounds away. A
product may, and then it is at the limits of the integers anyway, unless a zero
follows, which makes it no number and so zero again. Where rounding has nothing
to do (`Unrounded`), which is so if all numbers on the way have no more than 53
bits, the results are the exact ones.
-/

namespace Sexpr

open Binary64

/-! ## Folds with rounding -/

/-- Combines numbers from left to right, each of them rounded, and each partial
result. -/
def roundedFold (combine : ℚ → ℚ → ℚ) (start : ℚ) (numbers : List Int64) : ℚ :=
  numbers.foldl (fun total number => nearest (combine total (nearest number.toInt))) start

/-- The numbers and the partial results of a fold are left alone by rounding. -/
def Unrounded (combine : ℚ → ℚ → ℚ) : ℚ → List Int64 → Prop
  | _, [] => True
  | total, number :: rest =>
      Representable number.toInt ∧ Representable (combine total number.toInt) ∧
        Unrounded combine (combine total number.toInt) rest

/-- A number as an integer result. -/
def integerOf (q : ℚ) : Int64 :=
  saturate (truncate q)

section

variable {combine : ℚ → ℚ → ℚ} {start : ℚ} {number : Int64} {numbers : List Int64}

theorem roundedFold_cons :
    roundedFold combine start (number :: numbers) =
      roundedFold combine (nearest (combine start (nearest number.toInt))) numbers :=
  rfl

theorem Unrounded.roundedFold_eq (h : Unrounded combine start numbers) :
    roundedFold combine start numbers =
      numbers.foldl (fun total number => combine total number.toInt) start := by
  induction numbers generalizing start with
  | nil => rfl
  | cons number rest ih =>
      obtain ⟨hnumber, htotal, hrest⟩ := h
      rw [roundedFold_cons, hnumber, htotal, ih hrest, List.foldl_cons]

theorem foldl_add_toInt (start : ℤ) (numbers : List Int64) :
    numbers.foldl (fun (total : ℚ) number => total + number.toInt) start =
      ((start + (numbers.map Int64.toInt).sum : ℤ) : ℚ) := by
  induction numbers generalizing start with
  | nil => simp
  | cons number rest ih =>
      rw [List.foldl_cons, ← Int.cast_add, ih, List.map_cons, List.sum_cons, add_assoc]

theorem foldl_sub_toInt (start : ℤ) (numbers : List Int64) :
    numbers.foldl (fun (total : ℚ) number => total - number.toInt) start =
      ((start - (numbers.map Int64.toInt).sum : ℤ) : ℚ) := by
  induction numbers generalizing start with
  | nil => simp
  | cons number rest ih =>
      rw [List.foldl_cons, ← Int.cast_sub, ih, List.map_cons, List.sum_cons, sub_sub]

theorem foldl_mul_toInt (start : ℤ) (numbers : List Int64) :
    numbers.foldl (fun (total : ℚ) number => total * number.toInt) start =
      ((start * (numbers.map Int64.toInt).prod : ℤ) : ℚ) := by
  induction numbers generalizing start with
  | nil => simp
  | cons number rest ih =>
      rw [List.foldl_cons, ← Int.cast_mul, ih, List.map_cons, List.prod_cons, mul_assoc]

/-- Adding to the negative is subtracting, in spite of rounding. -/
theorem roundedFold_add_neg :
    roundedFold (· + ·) (-start) numbers = -roundedFold (· - ·) start numbers := by
  induction numbers generalizing start with
  | nil => rfl
  | cons number rest ih =>
      rw [roundedFold_cons, roundedFold_cons, neg_add_eq_sub, ← neg_sub, nearest_neg, ih]

theorem roundedFold_mul_zero : roundedFold (· * ·) 0 numbers = 0 := by
  induction numbers with
  | nil => rfl
  | cons number rest ih => rw [roundedFold_cons, zero_mul, nearest_zero, ih]

end

/-! ## How great a total may become -/

/-- Beyond this a total no longer grows by an integer. -/
def sumBound : ℚ :=
  2 ^ 117

theorem sumBound_lt_limit : sumBound < limit := by
  have := two_zpow_lt_limit (e := 117) (by norm_num)
  exact_mod_cast this

theorem nearest_sumBound_add : nearest (sumBound + 2 ^ 63) = sumBound := by
  have hpos : (0 : ℚ) < sumBound + 2 ^ 63 := by norm_num [sumBound]
  have hquantum : quantum (sumBound + 2 ^ 63) = 65 := by
    refine quantum_eq (by norm_num) ?_ (.inr ?_) hpos.ne'
    · rw [abs_of_pos hpos]
      norm_num [sumBound]
    · rw [abs_of_pos hpos]
      norm_num [sumBound]
  have hround : roundEven ((sumBound + 2 ^ 63) / 2 ^ (65 : ℤ)) = 2 ^ 52 := by
    refine roundEven_eq (.inl ?_)
    norm_num [sumBound, abs_of_pos]
  rw [nearest, hquantum, hround]
  norm_num [sumBound]

theorem abs_nearest_add_le {total : ℚ} (h : |total| ≤ sumBound) (number : Int64) :
    |nearest (total + nearest number.toInt)| ≤ sumBound := by
  rw [abs_nearest, ← nearest_sumBound_add]
  refine nearest_mono ((abs_add_le _ _).trans ?_)
  exact add_le_add h (abs_nearest_toInt_le number)

theorem abs_roundedFold_add_le {total : ℚ} (numbers : List Int64) (h : |total| ≤ sumBound) :
    |roundedFold (· + ·) total numbers| ≤ sumBound := by
  induction numbers generalizing total with
  | nil => exact h
  | cons number rest ih => exact ih (abs_nearest_add_le h number)

theorem one_le_abs_nearest {q : ℚ} (h : 1 ≤ |q|) : 1 ≤ |nearest q| := by
  have hone : Representable 1 := by
    simpa using representable_intCast (k := 1) (by norm_num)
  rw [abs_nearest]
  exact hone.le_nearest h

theorem one_le_abs_nearest_toInt {number : Int64} (h : number ≠ 0) :
    1 ≤ |nearest number.toInt| := by
  have hne : number.toInt ≠ 0 := fun hzero => h (Int64.toInt_inj.1 hzero)
  refine one_le_abs_nearest ?_
  rw [← Int.cast_abs]
  exact_mod_cast Int.one_le_abs hne

theorem one_le_abs_roundedFold_mul {total : ℚ} {numbers : List Int64} (h : 1 ≤ |total|)
    (hne : ∀ number ∈ numbers, number ≠ 0) : 1 ≤ |roundedFold (· * ·) total numbers| := by
  induction numbers generalizing total with
  | nil => exact h
  | cons number rest ih =>
      refine ih (one_le_abs_nearest ?_)
        fun other hother => hne other (List.mem_cons_of_mem _ hother)
      rw [abs_mul]
      exact one_le_mul_of_one_le_of_one_le h
        (one_le_abs_nearest_toInt (hne number List.mem_cons_self))

/-! ## Running totals -/

theorem finish_of_tracks {total : Float} {q : ℚ} (h : Tracks total q) :
    RunningTotal.finish ⟨true, total⟩ = .int (integerOf q) := by
  rw [RunningTotal.finish, if_pos rfl, h.toInt64_towardZero, integerOf]

theorem denotes_sum : Denotes (unpacked RunningTotal.sum.total) 0 := by
  have : unpacked RunningTotal.sum.total = .zero .positive := rfl
  rw [this]
  rfl

theorem denotes_product : Denotes (unpacked RunningTotal.product.total) 1 := by
  have : unpacked RunningTotal.product.total = .finite .positive (2 ^ 52) (-52) (by norm_num) := rfl
  rw [this, Denotes, unit]
  norm_num

theorem abs_one_lt_limit : |(1 : ℚ)| < limit := by
  simpa using two_zpow_lt_limit (e := 0) (by norm_num)

section

variable {total : Float} {q : ℚ} (fuel : Nat) (numbers : List Int64) (machine : Machine)

theorem addInto_integers (h : Denotes (unpacked total) q) (hq : |q| ≤ sumBound) :
    ∃ result, Operator.addInto (eval (fuel + 1)) ⟨true, total⟩ (numbers.map .int) machine =
        .done (.ok ⟨true, result⟩) machine ∧
      Denotes (unpacked result) (roundedFold (· + ·) q numbers) := by
  induction numbers generalizing total q with
  | nil => exact ⟨total, rfl, h⟩
  | cons number rest ih =>
      have hnext := abs_nearest_add_le hq number
      exact ih ((reads_add h (denotes_floatOfInt number)).denotes
        (hnext.trans_lt sumBound_lt_limit)) hnext

theorem multiplyInto_integers (h : Tracks total q) :
    ∃ result, Operator.multiplyInto (eval (fuel + 1)) ⟨true, total⟩ (numbers.map .int) machine =
        .done (.ok ⟨true, result⟩) machine ∧
      Tracks result (roundedFold (· * ·) q numbers) := by
  induction numbers generalizing total q with
  | nil => exact ⟨total, rfl, h⟩
  | cons number rest ih =>
      have hnext : Tracks (total * floatOfInt number) (nearest (q * nearest number.toInt)) := by
        refine h.mul (denotes_floatOfInt number) ?_
        rcases eq_or_ne number 0 with rfl | hne
        · exact .inl (by simp)
        · exact .inr (one_le_abs_nearest_toInt hne)
      have hstep : Operator.multiplyInto (eval (fuel + 1)) ⟨true, total⟩
          ((number :: rest).map .int) machine =
            (if RunningTotal.isZero ⟨true, total * floatOfInt number⟩ then
              pure ⟨true, total * floatOfInt number⟩
            else Operator.multiplyInto (eval (fuel + 1)) ⟨true, total * floatOfInt number⟩
              (rest.map .int) : Action RunningTotal) machine :=
        rfl
      rw [hstep, roundedFold_cons]
      split
      · next hzero =>
          -- The operands behind a zero are left out, and would have changed nothing.
          have hq := hnext.eq_zero hzero
          refine ⟨_, rfl, ?_⟩
          rw [hq] at hnext
          rw [hq, roundedFold_mul_zero]
          exact hnext
      · exact ih hnext

end

/-! ## The operators -/

/-- An operator that answers a number answers it as an integer. -/
theorem returns_application {operator : Operator} {numbers : List Int64} {machine : Machine}
    {value : Value} (hcount : operator.arity.accepts numbers.length = true)
    (h : operator.run (eval 1) (numbers.map .int) machine = .done (.ok value) machine) :
    Returns (application operator (numbers.map .int)) machine (.ok value) machine := by
  refine ⟨2, ?_⟩
  rw [eval_application (by rwa [List.length_map]), h]

theorem returns_add (numbers : List Int64) (machine : Machine) :
    Returns (application .add (numbers.map .int)) machine
      (.ok (.int (integerOf (roundedFold (· + ·) 0 numbers)))) machine := by
  have hbound : |(0 : ℚ)| ≤ sumBound := by norm_num [sumBound]
  obtain ⟨result, hrun, hresult⟩ := addInto_integers 0 numbers machine denotes_sum hbound
  have hfits := (abs_roundedFold_add_le numbers hbound).trans_lt sumBound_lt_limit
  refine returns_application rfl ?_
  rw [← finish_of_tracks (.inl (.inl ⟨hresult, hfits⟩))]
  exact Action.bind_of_done hrun

theorem returns_subtract (first : Int64) {others : List Int64} (hothers : others ≠ [])
    (machine : Machine) :
    Returns (application .subtract ((first :: others).map .int)) machine
      (.ok (.int (integerOf (roundedFold (· - ·) (nearest first.toInt) others)))) machine := by
  have hsame : nearest (0 + nearest first.toInt) = nearest first.toInt := by
    rw [zero_add]
    exact representable_nearest _
  have hbound : |nearest first.toInt| ≤ sumBound :=
    hsame ▸ abs_nearest_add_le (by norm_num [sumBound]) first
  have hstart := hsame ▸ reads_add denotes_sum (denotes_floatOfInt first)
  have hnegative := (reads_neg hstart).denotes (by
    rw [abs_neg]
    exact hbound.trans_lt sumBound_lt_limit)
  rw [← abs_neg] at hbound
  obtain ⟨result, hrun, hresult⟩ := addInto_integers 0 others machine hnegative hbound
  have hfits := (abs_roundedFold_add_le others hbound).trans_lt sumBound_lt_limit
  have hback := reads_neg (.inl ⟨hresult, hfits⟩)
  rw [roundedFold_add_neg, neg_neg] at hback
  refine returns_application (decide_eq_true (two_le_length_cons first hothers)) ?_
  rw [← finish_of_tracks (.inl hback)]
  exact Action.bind_of_done hrun

theorem returns_multiply (numbers : List Int64) (machine : Machine) :
    Returns (application .multiply (numbers.map .int)) machine
      (.ok (.int (integerOf (roundedFold (· * ·) 1 numbers)))) machine := by
  obtain ⟨result, hrun, hresult⟩ :=
    multiplyInto_integers 0 numbers machine (.inl (.inl ⟨denotes_product, abs_one_lt_limit⟩))
  refine returns_application rfl ?_
  rw [← finish_of_tracks hresult]
  exact Action.bind_of_done hrun

theorem returns_divide (first : Int64) {divisors : List Int64} (hdivisors : divisors ≠ [])
    (hne : ∀ divisor ∈ divisors, divisor ≠ 0) (machine : Machine) :
    Returns (application .divide ((first :: divisors).map .int)) machine
      (.ok (.int (integerOf
        (nearest (nearest first.toInt / roundedFold (· * ·) 1 divisors))))) machine := by
  obtain ⟨result, hrun, hresult⟩ :=
    multiplyInto_integers 0 divisors machine (.inl (.inl ⟨denotes_product, abs_one_lt_limit⟩))
  have hlarge : 1 ≤ |roundedFold (· * ·) 1 divisors| :=
    one_le_abs_roundedFold_mul (by norm_num) hne
  have hnonzero : roundedFold (· * ·) 1 divisors ≠ 0 := by
    intro hzero
    rw [hzero, abs_zero] at hlarge
    exact absurd hlarge (by norm_num)
  have hdivisor := hresult.resolve_right fun h => hnonzero h.2
  have hdividend : Denotes (unpacked (RunningTotal.product.total * floatOfInt first))
      (nearest first.toInt) := by
    have hsame : nearest (1 * nearest first.toInt) = nearest first.toInt := by
      rw [one_mul]
      exact representable_nearest _
    exact (hsame ▸ reads_mul denotes_product (denotes_floatOfInt first)).denotes
      (abs_nearest_toInt_lt_limit first)
  have hinteger := toInt64_div hdividend (abs_nearest_toInt_le first) hdivisor hnonzero
  have hnotZero : RunningTotal.isZero ⟨true, result⟩ = false := by
    rw [RunningTotal.isZero, beq_zero hdivisor, decide_eq_false hnonzero]
  refine returns_application (decide_eq_true (two_le_length_cons first hdivisors)) ?_
  rw [integerOf, ← hinteger]
  refine (Action.bind_of_done hrun).trans ?_
  rw [hnotZero]
  rfl

/-! ## Exact results -/

/-- A result is an integer, unless that has no 64 bits. -/
def Exact (result : Int64) (n : ℤ) : Prop :=
  -2 ^ 63 ≤ n → n < 2 ^ 63 → result.toInt = n

theorem exact_of_truncate_eq {q : ℚ} {n : ℤ} (h : truncate q = n) : Exact (integerOf q) n := by
  intro hlower hupper
  rw [integerOf, h, toInt_saturate hlower hupper]

theorem exact_sum {numbers : List Int64} (h : Unrounded (· + ·) 0 numbers) :
    Exact (integerOf (roundedFold (· + ·) 0 numbers)) (numbers.map Int64.toInt).sum := by
  apply exact_of_truncate_eq
  have hfold := foldl_add_toInt 0 numbers
  rw [Int.cast_zero, zero_add] at hfold
  rw [h.roundedFold_eq, hfold, truncate_intCast]

theorem exact_difference {first : Int64} {others : List Int64} (hfirst : Representable first.toInt)
    (h : Unrounded (· - ·) first.toInt others) :
    Exact (integerOf (roundedFold (· - ·) (nearest first.toInt) others))
      (first.toInt - (others.map Int64.toInt).sum) := by
  apply exact_of_truncate_eq
  rw [hfirst, h.roundedFold_eq, foldl_sub_toInt, truncate_intCast]

theorem roundedFold_mul_eq {numbers : List Int64} (h : Unrounded (· * ·) 1 numbers) :
    roundedFold (· * ·) 1 numbers = ((numbers.map Int64.toInt).prod : ℤ) := by
  have hfold := foldl_mul_toInt 1 numbers
  rw [Int.cast_one, one_mul] at hfold
  rw [h.roundedFold_eq, hfold]

theorem exact_product {numbers : List Int64} (h : Unrounded (· * ·) 1 numbers) :
    Exact (integerOf (roundedFold (· * ·) 1 numbers)) (numbers.map Int64.toInt).prod := by
  apply exact_of_truncate_eq
  rw [roundedFold_mul_eq h, truncate_intCast]

theorem exact_quotient {first : Int64} {divisors : List Int64}
    (hne : ∀ divisor ∈ divisors, divisor ≠ 0) (h : Unrounded (· * ·) 1 divisors)
    (hfirst : |first.toInt| ≤ 2 ^ 53 ∨ Representable first.toInt ∧
      Representable (first.toInt / ((divisors.map Int64.toInt).prod : ℤ))) :
    Exact (integerOf (nearest (nearest first.toInt / roundedFold (· * ·) 1 divisors)))
      (first.toInt.tdiv (divisors.map Int64.toInt).prod) := by
  apply exact_of_truncate_eq
  have hprod : (divisors.map Int64.toInt).prod ≠ 0 := by
    refine List.prod_ne_zero fun hmem => ?_
    obtain ⟨divisor, hdivisor, hzero⟩ := List.mem_map.1 hmem
    exact hne divisor hdivisor (Int64.toInt_inj.1 hzero)
  rw [roundedFold_mul_eq h]
  rcases hfirst with hsmall | ⟨hfirst, hquotient⟩
  · rw [representable_intCast hsmall]
    exact truncate_nearest_div hsmall hprod
  · rw [hfirst, hquotient, truncate_div]

/-- What the four operators make of integers: the result of a fold that rounds as
it goes, and the exact one if nothing on the way has to be rounded. -/
theorem returns_integer_arithmetic (machine : Machine) :
    (∀ numbers : List Int64,
      Returns (application .add (numbers.map .int)) machine
        (.ok (.int (integerOf (roundedFold (· + ·) 0 numbers)))) machine ∧
      (Unrounded (· + ·) 0 numbers →
        Exact (integerOf (roundedFold (· + ·) 0 numbers)) (numbers.map Int64.toInt).sum)) ∧
    (∀ (first : Int64) (others : List Int64), others ≠ [] →
      Returns (application .subtract ((first :: others).map .int)) machine
        (.ok (.int (integerOf (roundedFold (· - ·) (nearest first.toInt) others)))) machine ∧
      (Representable first.toInt → Unrounded (· - ·) first.toInt others →
        Exact (integerOf (roundedFold (· - ·) (nearest first.toInt) others))
          (first.toInt - (others.map Int64.toInt).sum))) ∧
    (∀ numbers : List Int64,
      Returns (application .multiply (numbers.map .int)) machine
        (.ok (.int (integerOf (roundedFold (· * ·) 1 numbers)))) machine ∧
      (Unrounded (· * ·) 1 numbers →
        Exact (integerOf (roundedFold (· * ·) 1 numbers)) (numbers.map Int64.toInt).prod)) ∧
    (∀ (first : Int64) (divisors : List Int64), divisors ≠ [] →
      (∀ divisor ∈ divisors, divisor ≠ 0) →
      Returns (application .divide ((first :: divisors).map .int)) machine
        (.ok (.int (integerOf
          (nearest (nearest first.toInt / roundedFold (· * ·) 1 divisors))))) machine ∧
      (Unrounded (· * ·) 1 divisors →
        |first.toInt| ≤ 2 ^ 53 ∨ Representable first.toInt ∧
          Representable (first.toInt / ((divisors.map Int64.toInt).prod : ℤ)) →
        Exact (integerOf (nearest (nearest first.toInt / roundedFold (· * ·) 1 divisors)))
          (first.toInt.tdiv (divisors.map Int64.toInt).prod))) ∧
    ∀ n : ℤ, |n| ≤ 2 ^ 53 → Representable n := by
  refine ⟨?_, ?_, ?_, ?_, fun n hn => representable_intCast hn⟩
  · exact fun numbers => ⟨returns_add numbers machine, exact_sum⟩
  · exact fun first others hothers => ⟨returns_subtract first hothers machine, exact_difference⟩
  · exact fun numbers => ⟨returns_multiply numbers machine, exact_product⟩
  · exact fun first divisors hdivisors hne =>
      ⟨returns_divide first hdivisors hne machine, exact_quotient hne⟩

/-- `(/ 7 -2)`, where nothing is rounded before the point is cut off. -/
theorem returns_integer_arithmetic_quotient :
    Returns (application .divide [.int 7, .int (-2)]) ⟨.empty, .unbounded⟩ (.ok (.int (-3)))
      ⟨.empty, .unbounded⟩ := by
  obtain ⟨-, -, -, hdivide, hrepresentable⟩ := returns_integer_arithmetic ⟨.empty, .unbounded⟩
  have hseven : (7 : Int64).toInt = 7 := rfl
  have htwo : (-2 : Int64).toInt = -2 := rfl
  have hdivisor : Representable (-2 : Int64).toInt := by
    rw [htwo]
    exact hrepresentable (-2) (by norm_num)
  have hunrounded : Unrounded (· * ·) 1 [-2] := by
    refine ⟨hdivisor, ?_, trivial⟩
    dsimp only
    rw [one_mul]
    exact hdivisor
  have hdividend : |(7 : Int64).toInt| ≤ 2 ^ 53 := by
    rw [hseven]
    norm_num
  obtain ⟨hreturns, hexact⟩ := hdivide 7 [-2] (by simp) (by simp)
  have hvalue := hexact hunrounded (.inl hdividend) (by decide) (by decide)
  have hthree : integerOf (nearest (nearest (7 : Int64).toInt / roundedFold (· * ·) 1 [-2])) = -3 :=
    Int64.toInt_inj.1 hvalue
  rw [hthree] at hreturns
  exact hreturns

/-- One more than `2 ^ 53` has 54 bits, and loses the last one. -/
theorem returns_add_not_exact :
    Returns (application .add [.int 9007199254740993, .int 0]) ⟨.empty, .unbounded⟩
      (.ok (.int 9007199254740992)) ⟨.empty, .unbounded⟩ ∧
    ¬ Returns (application .add [.int 9007199254740993, .int 0]) ⟨.empty, .unbounded⟩
      (.ok (.int 9007199254740993)) ⟨.empty, .unbounded⟩ := by
  have hrounded : Returns (application .add [.int 9007199254740993, .int 0]) ⟨.empty, .unbounded⟩
      (.ok (.int 9007199254740992)) ⟨.empty, .unbounded⟩ := ⟨2, rfl⟩
  refine ⟨hrounded, fun hexact => ?_⟩
  have hsame := (returns_unique hrounded hexact).1
  exact absurd (Value.int.inj (Except.ok.inj hsame)) (by decide)

end Sexpr

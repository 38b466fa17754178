import Sexpr.Proofs.StoppedProduct

/-!
# Behind a short circuit

Three operators stop before their operands are at an end. `*` has its result as soon
as the product is zero, `/` fails as soon as its divisor is, and `<` has its result as
soon as the ascent is broken. What stands behind that operand is only counted, and not
evaluated: it may print, bind, fail or not return at all.

For the products this is what `multiplyInto_append` says of the loop they share. The
ascent has a loop of its own, which stops when its state is the other way round: it goes
on while the ascent holds.
-/

namespace Sexpr

/-! ## The ascent -/

namespace Ascent

/-- The ascent of so many values, watched from the first of them to the last. -/
def ofValues (values : List Value) : Ascent :=
  feedLast next start values

end Ascent

theorem ascendThrough_cons {ev : Value → Action Value} {expression value : Value}
    {before middle : Machine} {ascent following : Ascent}
    (h : ev expression before = .done (.ok value) middle)
    (hnext : ascent.next value = (.ok (), following)) (rest : List Value) :
    Operator.ascendThrough ev ascent (expression :: rest) before =
      (if following.holds then Operator.ascendThrough ev following rest else pure following :
        Action Ascent) middle := by
  rw [Operator.ascendThrough, Action.bind_of_done h, hnext]
  rfl

/-- Operands are watched as long as they ascend. If the last of some breaks the ascent,
the others are not evaluated, whatever they are. -/
theorem ascendThrough_append {expressions values : List Value} {before after : Machine}
    (h : ReturnEach expressions before values after)
    (hnumbers : ∀ value ∈ values, value.isNumber = true) {ascent : Ascent}
    (hopen : (feedLast Ascent.next ascent values.dropLast).holds = true)
    (hbroken : (feedLast Ascent.next ascent values).holds = false) (rest : List Value) :
    ∃ fuel, ∀ more, fuel ≤ more →
      Operator.ascendThrough (eval more) ascent (expressions ++ rest) before =
        .done (.ok (feedLast Ascent.next ascent values)) after := by
  induction h generalizing ascent with
  | nil => exact absurd hopen (Bool.eq_false_iff.1 hbroken)
  | @cons expression value expressions values before middle after hfirst hothers ih =>
      obtain ⟨fuel, hfirst⟩ := hfirst
      obtain ⟨hvalue, hvalues⟩ := List.forall_mem_cons.1 hnumbers
      obtain ⟨x, hx⟩ := Value.isNumber_iff.1 hvalue
      obtain ⟨above, hnext⟩ := Ascent.next_of_number hx ascent
      generalize Ascent.mk (ascent.holds && above) (some x) = following at hnext
      rw [feedLast_cons hnext] at hbroken ⊢
      cases hothers with
      | nil =>
          have hlast : ¬ following.holds = true := Bool.eq_false_iff.1 hbroken
          refine ⟨fuel, fun more hmore => ?_⟩
          rw [List.cons_append, ascendThrough_cons (eval_mono hmore hfirst) hnext, if_neg hlast]
          rfl
      | cons =>
          -- More is to come, so the ascent is not broken yet.
          rw [List.dropLast_cons_cons, feedLast_cons hnext] at hopen
          obtain ⟨enough, hrun⟩ := ih hvalues hopen hbroken
          refine ⟨max fuel enough, fun more hmore => ?_⟩
          rw [List.cons_append, ascendThrough_cons (eval_mono (by omega) hfirst) hnext,
            if_pos (Ascent.holds_of_feedLast hopen)]
          exact hrun more (by omega)

/-! ## The operators -/

section

variable {expressions values : List Value} {before after : Machine}

theorem returns_divide_append {dividend number : Value} {start : Machine}
    (hdividend : Returns dividend start (.ok number) before) (hnumber : number.isNumber = true)
    (h : ReturnEach expressions before values after)
    (hnumbers : ∀ value ∈ values, value.isNumber = true)
    (hopen : ¬ RunningTotal.product.ReachesZero values.dropLast)
    (hzero : (RunningTotal.productOf values).isZero = true) (rest : List Value) :
    Returns (application .divide (dividend :: (expressions ++ rest))) start
      (.error .divisionByZero) after := by
  have hstop : rest = [] ∨ (RunningTotal.productOf values).isZero = true := .inr hzero
  obtain ⟨enough, hrun⟩ :=
    multiplyInto_append h hnumbers RunningTotal.isZero_product hopen hstop
  have hsome : expressions ++ rest ≠ [] := by
    cases h with
    | nil => exact absurd hzero (Bool.eq_false_iff.1 RunningTotal.isZero_product)
    | cons => exact List.cons_ne_nil _ _
  obtain ⟨quotient, hdivide⟩ := returns_divide_of_divisor hdividend hnumber hsome hrun
  rw [RunningTotal.productOf] at hzero
  rw [if_pos hzero] at hdivide
  exact hdivide

theorem returns_less_append (h : ReturnEach expressions before values after)
    (hnumbers : ∀ value ∈ values, value.isNumber = true)
    (hopen : (Ascent.ofValues values.dropLast).holds = true)
    (hbroken : (Ascent.ofValues values).holds = false) (rest : List Value) :
    Returns (application .less (expressions ++ rest)) before (.ok (.int 0)) after := by
  obtain ⟨fuel, hrun⟩ := ascendThrough_append h hnumbers hopen hbroken rest
  refine ⟨fuel + 1, ?_⟩
  rw [eval_application rfl]
  refine (Action.bind_of_done (hrun fuel le_rfl)).trans ?_
  rw [Ascent.ofValues] at hbroken
  rw [hbroken]
  rfl

/-- Where an operand makes the product zero or breaks the ascent for the first time, the
result and the state are those it has led to, whatever operands are put behind it. -/
theorem returns_short_circuit (h : ReturnEach expressions before values after)
    (hnumbers : ∀ value ∈ values, value.isNumber = true) (rest : List Value) :
    (¬ RunningTotal.product.ReachesZero values.dropLast →
      (RunningTotal.productOf values).isZero = true →
      Returns (application .multiply (expressions ++ rest)) before
        (.ok (RunningTotal.productOf values).finish) after ∧
      ∀ dividend number start, Returns dividend start (.ok number) before →
        number.isNumber = true →
        Returns (application .divide (dividend :: (expressions ++ rest))) start
          (.error .divisionByZero) after) ∧
    ((Ascent.ofValues values.dropLast).holds = true →
      (Ascent.ofValues values).holds = false →
      Returns (application .less (expressions ++ rest)) before (.ok (.int 0)) after) := by
  refine ⟨fun hopen hzero => ⟨?_, ?_⟩, fun hopen hbroken => ?_⟩
  · exact returns_multiply_append h hnumbers hopen (.inr hzero)
  · intro dividend number start hdividend hnumber
    exact returns_divide_append hdividend hnumber h hnumbers hopen hzero rest
  · exact returns_less_append h hnumbers hopen hbroken rest

end

/-- Behind a two and a zero that is found by binding `x`, an unbound symbol and a line to
print do not matter. -/
theorem returns_short_circuit_choice :
    Returns (application .multiply
        [.int 2, application .choice [application .define [.symbol "x", .int 1], .int 0, .int 1],
          .symbol "y", application .print [.int 3]])
      ⟨.empty, .unbounded⟩ (.ok (.int 0)) ⟨⟨NameMap.empty.insert "x" (.int 1)⟩, .unbounded⟩ ∧
    Returns (application .divide
        [.int 6, .int 2,
          application .choice [application .define [.symbol "x", .int 1], .int 0, .int 1],
          .symbol "y", application .print [.int 3]])
      ⟨.empty, .unbounded⟩ (.error .divisionByZero)
      ⟨⟨NameMap.empty.insert "x" (.int 1)⟩, .unbounded⟩ ∧
    Returns (application .less
        [.int 2, application .choice [application .define [.symbol "x", .int 1], .int 0, .int 1],
          .symbol "y", application .print [.int 3]])
      ⟨.empty, .unbounded⟩ (.ok (.int 0)) ⟨⟨NameMap.empty.insert "x" (.int 1)⟩, .unbounded⟩ := by
  have hzero : Returns
      (application .choice [application .define [.symbol "x", .int 1], .int 0, .int 1])
      ⟨.empty, .unbounded⟩ (.ok (.int 0)) ⟨⟨NameMap.empty.insert "x" (.int 1)⟩, .unbounded⟩ :=
    ⟨3, rfl⟩
  have heach : ReturnEach
      [.int 2, application .choice [application .define [.symbol "x", .int 1], .int 0, .int 1]]
      ⟨.empty, .unbounded⟩ [.int 2, .int 0]
      ⟨⟨NameMap.empty.insert "x" (.int 1)⟩, .unbounded⟩ :=
    .cons (returns_number rfl _) (.cons hzero .nil)
  obtain ⟨hproducts, hless⟩ := returns_short_circuit heach (by decide)
    [.symbol "y", application .print [.int 3]]
  obtain ⟨hmultiply, hdivide⟩ := hproducts (by decide +kernel) (by decide +kernel)
  have hfinish : (RunningTotal.productOf [.int 2, .int 0]).finish = .int 0 := by decide +kernel
  rw [hfinish] at hmultiply
  exact ⟨hmultiply, hdivide (.int 6) (.int 6) _ (returns_number rfl _) rfl,
    hless (by decide +kernel) (by decide +kernel)⟩

end Sexpr

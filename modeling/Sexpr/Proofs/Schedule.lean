import Sexpr.Proofs.Feeding
import Sexpr.Proofs.Returns

/-!
# The schedule of a sum, a difference and a quotient

`+`, `-` and `/` have no result before they have looked at all their operands. They
evaluate them from left to right, each of them once, and take each value into a total
before they turn to the next operand. So there is one step to be looked at, and it can
go wrong in two ways: the operand fails, or its value is no number. A step that goes
wrong is the last one.

What differs is where the totals begin. `-` and `/` set their first operand apart, and
`/` has a second total for the others. That one stops at zero like a product, but then
there is no quotient: a division that succeeds has not stopped.
-/

namespace Sexpr

/-! ## One operand -/

section

variable {α : Type} {combine : Float → Float → Float} {running : RunningTotal}
variable {expression : Value} {before after : Machine} {next : RunningTotal → Action α}

/-- If all goes well, an operand has been evaluated and its value taken into the total. -/
theorem accepted_of_done {fuel : Nat} {result : α}
    (h : (eval fuel expression >>= fun value =>
      Action.ofStep (running.accept combine value) >>= next) before = .done (.ok result) after) :
    ∃ value middle accepted, Returns expression before (.ok value) middle ∧
      running.accept combine value = (.ok (), accepted) ∧
      next accepted middle = .done (.ok result) after := by
  obtain ⟨value, middle, hvalue, hrest⟩ := Action.bind_eq_ok h
  obtain ⟨accepted, last, htaken, hnext⟩ := Action.bind_eq_ok hrest
  obtain ⟨haccept, rfl⟩ := Action.ofStep_eq_ok htaken
  exact ⟨value, last, accepted, ⟨fuel, hvalue⟩, haccept, hnext⟩

/-- An operand that fails, or whose value is no number, is the last to be evaluated. -/
theorem done_of_refused {ev : Value → Action Value} {answer : Except Error Value} {error : Error}
    (h : ev expression before = .done answer after)
    (hrefused : (answer >>= Value.number) = .error error) :
    (ev expression >>= fun value => Action.ofStep (running.accept combine value) >>= next)
      before = .done (.error error) after := by
  cases answer with
  | ok value =>
      refine (Action.bind_of_done h).trans (Action.bind_of_error ?_)
      rw [RunningTotal.accept_of_number_error hrefused]
      rfl
  | error reason =>
      cases hrefused
      exact Action.bind_of_error h

end

/-! ## Operands one after the other -/

section

variable {running total : RunningTotal} {expressions values : List Value}
variable {before middle after : Machine}

theorem returnEach_of_addInto {fuel : Nat}
    (h : Operator.addInto (eval fuel) running expressions before = .done (.ok total) after) :
    ∃ values, ReturnEach expressions before values after ∧
      (∀ value ∈ values, value.isNumber = true) ∧
      total = feedLast RunningTotal.add running values := by
  induction expressions generalizing running before with
  | nil =>
      cases h
      exact ⟨[], .nil, nofun, rfl⟩
  | cons expression rest ih =>
      obtain ⟨value, middle, accepted, hfirst, haccept, hnext⟩ := accepted_of_done h
      obtain ⟨values, hrest, hnumbers, htotal⟩ := ih hnext
      refine ⟨value :: values, .cons hfirst hrest, ?_, ?_⟩
      · exact List.forall_mem_cons.2 ⟨RunningTotal.isNumber_of_accept haccept, hnumbers⟩
      · exact htotal.trans (feedLast_cons haccept values).symm

/-- A product that is not zero in the end has not been stopped on the way. -/
theorem returnEach_of_multiplyInto {fuel : Nat}
    (h : Operator.multiplyInto (eval fuel) running expressions before = .done (.ok total) after)
    (htotal : total.isZero = false) :
    ∃ values, ReturnEach expressions before values after ∧
      (∀ value ∈ values, value.isNumber = true) ∧
      total = feedLast RunningTotal.multiply running values := by
  induction expressions generalizing running before with
  | nil =>
      cases h
      exact ⟨[], .nil, nofun, rfl⟩
  | cons expression rest ih =>
      obtain ⟨value, middle, accepted, hfirst, haccept, hnext⟩ := accepted_of_done h
      split at hnext
      · next hzero =>
          cases hnext
          exact absurd hzero (Bool.eq_false_iff.1 htotal)
      · obtain ⟨values, hrest, hnumbers, htotal⟩ := ih hnext
        refine ⟨value :: values, .cons hfirst hrest, ?_, ?_⟩
        · exact List.forall_mem_cons.2 ⟨RunningTotal.isNumber_of_accept haccept, hnumbers⟩
        · exact htotal.trans (feedLast_cons haccept values).symm

/-- Operands whose values are numbers have been added once they are evaluated, and the
others come next. -/
theorem addInto_append (h : ReturnEach expressions before values middle)
    (hnumbers : ∀ value ∈ values, value.isNumber = true) (running : RunningTotal)
    (rest : List Value) :
    ∃ fuel, ∀ more, fuel ≤ more →
      Operator.addInto (eval more) running (expressions ++ rest) before =
        Operator.addInto (eval more) (feedLast RunningTotal.add running values) rest middle := by
  induction h generalizing running with
  | nil => exact ⟨0, fun _ _ => rfl⟩
  | @cons expression value expressions values before middle after hfirst _ ih =>
      obtain ⟨fuel, hfirst⟩ := hfirst
      obtain ⟨hvalue, hvalues⟩ := List.forall_mem_cons.1 hnumbers
      obtain ⟨next, hnext : running.add value = (.ok (), next)⟩ :=
        RunningTotal.exists_accept hvalue (· + ·) running
      obtain ⟨enough, hrest⟩ := ih hvalues next
      refine ⟨max fuel enough, fun more hmore => ?_⟩
      rw [feedLast_cons hnext, ← hrest more (by omega), List.cons_append, Operator.addInto,
        Action.bind_of_done (eval_mono (by omega) hfirst), hnext]
      rfl

/-- A sum comes no further than to an operand that is refused. -/
theorem addInto_of_refused {expression : Value} {answer : Except Error Value} {error : Error}
    (h : ReturnEach expressions before values middle)
    (hnumbers : ∀ value ∈ values, value.isNumber = true)
    (hexpression : Returns expression middle answer after)
    (hrefused : (answer >>= Value.number) = .error error) (running : RunningTotal)
    (rest : List Value) :
    ∃ fuel, ∀ more, fuel ≤ more →
      Operator.addInto (eval more) running (expressions ++ expression :: rest) before =
        .done (.error error) after := by
  obtain ⟨fuel, hfirst⟩ := addInto_append h hnumbers running (expression :: rest)
  obtain ⟨enough, hexpression⟩ := hexpression
  refine ⟨max fuel enough, fun more hmore => ?_⟩
  rw [hfirst more (by omega)]
  exact done_of_refused (eval_mono (by omega) hexpression) hrefused

end

/-! ## The operators -/

section

variable {operands values : List Value} {before middle after : Machine}

/-- A result comes of operands that were evaluated one after the other, each of them to a
number, and it is an integer if all of these are. -/
def Scheduled (operands : List Value) (before : Machine) (result : Value) (after : Machine) :
    Prop :=
  ∃ values, ReturnEach operands before values after ∧
    (∀ value ∈ values, value.isNumber = true) ∧
    result.kind = if ∀ value ∈ values, value.kind = .int then .int else .real

theorem scheduled_finish {running : RunningTotal} (h : ReturnEach operands before values after)
    (hnumbers : ∀ value ∈ values, value.isNumber = true)
    (hint : running.isInt = true ↔ ∀ value ∈ values, value.kind = .int) :
    Scheduled operands before running.finish after := by
  refine ⟨values, h, hnumbers, ?_⟩
  rw [RunningTotal.kind_finish]
  simp only [hint]

theorem scheduled_add {result : Value}
    (h : Returns (application .add operands) before (.ok result) after) :
    Scheduled operands before result after := by
  obtain ⟨_, h⟩ := h
  obtain ⟨-, fuel, hrun⟩ := run_of_eval_application h
  obtain ⟨total, last, hsum, hresult⟩ := Action.bind_eq_ok hrun
  obtain ⟨values, heach, hnumbers, rfl⟩ := returnEach_of_addInto hsum
  cases hresult
  exact scheduled_finish heach hnumbers
    ((RunningTotal.isInt_feedLast hnumbers).trans (and_iff_right rfl))

theorem scheduled_subtract {result : Value}
    (h : Returns (application .subtract operands) before (.ok result) after) :
    Scheduled operands before result after := by
  obtain ⟨_, h⟩ := h
  obtain ⟨hcount, fuel, hrun⟩ := run_of_eval_application h
  cases operands with
  | nil => cases hcount
  | cons first others =>
      rw [Operator.run, evalSubtract_cons] at hrun
      obtain ⟨value, middle, accepted, hfirst, haccept, hnext⟩ := accepted_of_done hrun
      obtain ⟨total, last, hsum, hresult⟩ := Action.bind_eq_ok hnext
      obtain ⟨values, hothers, hnumbers, rfl⟩ := returnEach_of_addInto hsum
      cases hresult
      have hvalue := RunningTotal.isNumber_of_accept haccept
      refine scheduled_finish (.cons hfirst hothers)
        (List.forall_mem_cons.2 ⟨hvalue, hnumbers⟩) ?_
      -- Neither change of sign is a change of kind.
      rw [List.forall_mem_cons]
      exact (RunningTotal.isInt_feedLast hnumbers).trans
        (and_congr_left fun _ => (RunningTotal.isInt_of_accept haccept).trans (and_iff_right rfl))

theorem scheduled_divide {result : Value}
    (h : Returns (application .divide operands) before (.ok result) after) :
    Scheduled operands before result after := by
  obtain ⟨_, h⟩ := h
  obtain ⟨hcount, fuel, hrun⟩ := run_of_eval_application h
  cases operands with
  | nil => cases hcount
  | cons first others =>
      rw [Operator.run, evalDivide_cons] at hrun
      obtain ⟨value, middle, dividend, hfirst, haccept, hnext⟩ := accepted_of_done hrun
      obtain ⟨divisor, last, hproduct, hresult⟩ := Action.bind_eq_ok hnext
      split at hresult
      · cases hresult
      · next hzero =>
          cases hresult
          obtain ⟨values, hothers, hnumbers, rfl⟩ :=
            returnEach_of_multiplyInto hproduct (Bool.eq_false_iff.2 hzero)
          have hvalue := RunningTotal.isNumber_of_accept haccept
          refine scheduled_finish (.cons hfirst hothers)
            (List.forall_mem_cons.2 ⟨hvalue, hnumbers⟩) ?_
          rw [RunningTotal.divide, Bool.and_eq_true, List.forall_mem_cons]
          exact and_congr ((RunningTotal.isInt_of_accept haccept).trans (and_iff_right rfl))
            ((RunningTotal.isInt_feedLast hnumbers).trans (and_iff_right rfl))

/-- Behind its first operand, `-` adds like `+`. -/
theorem evalSubtract_of_first {first value : Value}
    (hfirst : Returns first before (.ok value) middle) (hvalue : value.isNumber = true)
    (others : List Value) :
    ∃ running fuel, ∀ more, fuel ≤ more →
      Operator.evalSubtract (eval more) (first :: others) before =
        (Operator.addInto (eval more) running others >>= fun running =>
          pure running.negate.finish) middle := by
  obtain ⟨fuel, hfirst⟩ := hfirst
  obtain ⟨running, hadd : RunningTotal.sum.add value = (.ok (), running)⟩ :=
    RunningTotal.exists_accept hvalue (· + ·) .sum
  refine ⟨running.negate, fuel, fun more hmore => ?_⟩
  rw [evalSubtract_cons, Action.bind_of_done (eval_mono hmore hfirst), hadd]
  rfl

variable {operator : Operator}

/-- A sum or a difference has a result if the operands are all numbers. -/
theorem exists_returns_of_numbers (hoperator : operator = .add ∨ operator = .subtract)
    (hcount : operator.arity.accepts operands.length = true)
    (h : ReturnEach operands before values after)
    (hnumbers : ∀ value ∈ values, value.isNumber = true) :
    ∃ result, Returns (application operator operands) before (.ok result) after := by
  rcases hoperator with rfl | rfl
  · obtain ⟨fuel, hrun⟩ := addInto_append h hnumbers .sum []
    rw [List.append_nil] at hrun
    refine ⟨(feedLast RunningTotal.add .sum values).finish, fuel + 1, ?_⟩
    rw [eval_application hcount]
    exact Action.bind_of_done (hrun fuel (Nat.le_refl fuel))
  · cases h with
    | nil => cases hcount
    | @cons _ _ others values _ _ _ hfirst hothers =>
        obtain ⟨hvalue, hvalues⟩ := List.forall_mem_cons.1 hnumbers
        obtain ⟨running, fuel, hrun⟩ := evalSubtract_of_first hfirst hvalue others
        obtain ⟨enough, hrest⟩ := addInto_append hothers hvalues running []
        rw [List.append_nil] at hrest
        refine ⟨(feedLast RunningTotal.add running values).negate.finish, max fuel enough + 1, ?_⟩
        rw [eval_application hcount, Operator.run, hrun _ (Nat.le_max_left fuel enough)]
        exact Action.bind_of_done (hrest _ (Nat.le_max_right fuel enough))

/-- A sum or a difference fails as soon as an operand is refused, and as that does. -/
theorem returns_of_refused {first : List Value} {expression : Value} {rest : List Value}
    {answer : Except Error Value} {error : Error}
    (hoperator : operator = .add ∨ operator = .subtract)
    (hcount : operator.arity.accepts (first ++ expression :: rest).length = true)
    (h : ReturnEach first before values middle)
    (hnumbers : ∀ value ∈ values, value.isNumber = true)
    (hexpression : Returns expression middle answer after)
    (hrefused : (answer >>= Value.number) = .error error) :
    Returns (application operator (first ++ expression :: rest)) before (.error error) after := by
  rcases hoperator with rfl | rfl
  · obtain ⟨fuel, hrun⟩ := addInto_of_refused h hnumbers hexpression hrefused .sum rest
    refine ⟨fuel + 1, ?_⟩
    rw [eval_application hcount]
    exact Action.bind_of_error (hrun fuel (Nat.le_refl fuel))
  · cases h with
    | nil =>
        obtain ⟨fuel, hexpression⟩ := hexpression
        refine ⟨fuel + 1, ?_⟩
        rw [eval_application hcount]
        exact done_of_refused hexpression hrefused
    | cons hfirst hothers =>
        obtain ⟨hvalue, hvalues⟩ := List.forall_mem_cons.1 hnumbers
        obtain ⟨running, fuel, hrun⟩ := evalSubtract_of_first hfirst hvalue _
        obtain ⟨enough, hrest⟩ :=
          addInto_of_refused hothers hvalues hexpression hrefused running rest
        refine ⟨max fuel enough + 1, ?_⟩
        rw [eval_application hcount, Operator.run, List.cons_append,
          hrun _ (Nat.le_max_left fuel enough)]
        exact Action.bind_of_error (hrest _ (Nat.le_max_right fuel enough))

end

/-- `+`, `-` and `/` succeed with all operands evaluated in their order, each to a number,
and the result is an integer if all of these are. For `+` and `-` that is also enough to
succeed, and otherwise the first operand that fails or is no number says how they fail. -/
theorem returns_schedule (operands : List Value) (before : Machine) :
    (∀ operator, operator = .add ∨ operator = .subtract ∨ operator = .divide →
      ∀ result after, Returns (application operator operands) before (.ok result) after →
        ∃ values, ReturnEach operands before values after ∧
          (∀ value ∈ values, value.isNumber = true) ∧
          result.kind = if ∀ value ∈ values, value.kind = .int then .int else .real) ∧
    ∀ operator, operator = .add ∨ operator = .subtract →
      operator.arity.accepts operands.length = true →
      (∀ values after, ReturnEach operands before values after →
        (∀ value ∈ values, value.isNumber = true) →
        ∃ result, Returns (application operator operands) before (.ok result) after) ∧
      ∀ first expression rest values middle, operands = first ++ expression :: rest →
        ReturnEach first before values middle → (∀ value ∈ values, value.isNumber = true) →
        (∀ error after, Returns expression middle (.error error) after →
          Returns (application operator operands) before (.error error) after) ∧
        ∀ value after, Returns expression middle (.ok value) after → value.isNumber = false →
          Returns (application operator operands) before (.error (.notNumeric value.kind))
            after := by
  refine ⟨fun operator hoperator result after h => ?_, fun operator hoperator hcount => ⟨?_, ?_⟩⟩
  · rcases hoperator with rfl | rfl | rfl
    · exact scheduled_add h
    · exact scheduled_subtract h
    · exact scheduled_divide h
  · intro values after heach hnumbers
    exact exists_returns_of_numbers hoperator hcount heach hnumbers
  · intro first expression rest values middle hoperands heach hnumbers
    subst hoperands
    refine ⟨fun error after herror => ?_, fun value after hvalue hnumber => ?_⟩
    · exact returns_of_refused hoperator hcount heach hnumbers herror rfl
    · exact returns_of_refused hoperator hcount heach hnumbers hvalue
        (Value.number_of_not_number hnumber)

/-- `(+ 6 1.5)` has a real for its result, `(+ 2 3)` has one at all, and in
`(- 5 (define x 1) y)` it is the value of the definition that is no number, with `x` bound. -/
theorem returns_schedule_define :
    (∃ values, ReturnEach [.int 6, .real 1.5] ⟨.empty, .unbounded⟩ values ⟨.empty, .unbounded⟩ ∧
      (∀ value ∈ values, value.isNumber = true) ∧
      Kind.real = if ∀ value ∈ values, value.kind = .int then .int else .real) ∧
    (∃ result, Returns (application .add [.int 2, .int 3]) ⟨.empty, .unbounded⟩ (.ok result)
      ⟨.empty, .unbounded⟩) ∧
    Returns (application .subtract [.int 5, .symbol "y"]) ⟨.empty, .unbounded⟩
      (.error (.unboundSymbol "y")) ⟨.empty, .unbounded⟩ ∧
    Returns (application .subtract
        [.int 5, application .define [.symbol "x", .int 1], .symbol "y"])
      ⟨.empty, .unbounded⟩ (.error (.notNumeric .empty))
      ⟨⟨NameMap.empty.insert "x" (.int 1)⟩, .unbounded⟩ := by
  have hsum : Returns (application .add [.int 6, .real 1.5]) ⟨.empty, .unbounded⟩
      (.ok (.real 7.5)) ⟨.empty, .unbounded⟩ := ⟨2, rfl⟩
  have hnumber (n : Int64) : Returns (.int n) ⟨.empty, .unbounded⟩ (.ok (.int n))
      ⟨.empty, .unbounded⟩ := ⟨1, rfl⟩
  have hdefine : Returns (application .define [.symbol "x", .int 1]) ⟨.empty, .unbounded⟩
      (.ok .empty) ⟨⟨NameMap.empty.insert "x" (.int 1)⟩, .unbounded⟩ := ⟨2, rfl⟩
  refine ⟨?_, ?_, ?_, ?_⟩
  · exact (returns_schedule [.int 6, .real 1.5] ⟨.empty, .unbounded⟩).1 .add (.inl rfl) _ _ hsum
  · exact ((returns_schedule [.int 2, .int 3] ⟨.empty, .unbounded⟩).2 .add (.inl rfl) rfl).1
      [.int 2, .int 3] _ (.cons (hnumber 2) (.cons (hnumber 3) .nil)) (by decide)
  · exact (((returns_schedule [.int 5, .symbol "y"] ⟨.empty, .unbounded⟩).2 .subtract (.inr rfl)
      rfl).2 [.int 5] (.symbol "y") [] [.int 5] _ rfl (.cons (hnumber 5) .nil)
      (by decide)).1 _ _ ⟨1, rfl⟩
  · exact (((returns_schedule _ ⟨.empty, .unbounded⟩).2 .subtract (.inr rfl)
      rfl).2 [.int 5] _ [.symbol "y"] [.int 5] _ rfl (.cons (hnumber 5) .nil)
      (by decide)).2 _ _ hdefine rfl

end Sexpr

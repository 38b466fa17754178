import Sexpr.Proofs.Returns

/-!
# No operator looks for an operand it was not given

An operator takes its operands by their positions and does not ask whether they
are there. That they are is settled once, where an application is dispatched: the
operands are counted, and the arity in the table says whether they are as many as
the operator takes. So there are two things to be said of every dispatch, however
deep in an evaluation it is made and whatever made the code that is evaluated. The
operator is given as many operands as it takes, and then it finds each of them.

The second is the case of `run_holds` that asks for nothing: an operator that is
given enough operands is stuck only if the evaluation of one of them is. For the
first, dispatch is compared with a guarded one, which does something else where the
number of operands is wrong. Whatever that is, it is never done (`evalGuarded_eq`).
-/

namespace Sexpr

/-! ## Operands are found -/

/-- The discipline that asks for nothing. What a run that keeps to it cannot be is
stuck. -/
def leniency : Discipline fun _ => True where
  Allowed _ := True
  Follows _ _ := True
  Blame _ _ := True
  refl _ := trivial
  trans _ _ := trivial
  grounded _ := trivial
  lookup {name machine} _ _ := by
    cases machine.environment.lookup name <;> trivial
  define _ _ _ _ _ := ⟨trivial, trivial⟩
  emitLine _ _ _ := ⟨trivial, trivial, fun _ _ => trivial⟩

theorem leniency_holds_iff {left right : Action Value} :
    leniency.tie.Holds (fun _ => True) left right ↔ ∀ machine, left machine ≠ .stuck := by
  constructor
  · intro h machine hstuck
    have hkeeps := h machine trivial
    rw [hstuck] at hkeeps
    exact hkeeps
  · intro h machine _
    cases hrun : left machine with
    | done answer after => cases answer <;> exact ⟨trivial, trivial, trivial⟩
    | stuck => exact h machine hrun
    | outOfFuel => trivial

section

variable {ev : Value → Action Value} (hev : ∀ expression machine, ev expression machine ≠ .stuck)

include hev

/-- An operator that is given as many operands as it takes finds every operand that
it looks for. -/
theorem run_ne_stuck {operator : Operator} {operands : List Value}
    (h : operator.arity.accepts operands.length = true) (machine : Machine) :
    operator.run ev operands machine ≠ .stuck := by
  have hparts : ∀ value, leniency.tie.Holds (fun _ => True) (ev value) (ev value) :=
    fun value => leniency_holds_iff.2 (hev value)
  exact leniency_holds_iff.1 (Operator.run_holds leniency.tie Closed.everything h trivial
    (fun _ _ => trivial) (fun expression _ => hparts expression) fun _ value _ => hparts value)
    machine

/-- Given too few it may not. -/
example (expression : Value) (machine : Machine) :
    Operator.cons.run ev [expression] machine = .stuck := rfl

theorem step_ne_stuck (expression : Value) (machine : Machine) :
    step ev expression machine ≠ .stuck := by
  have hparts : ∀ value, leniency.tie.Holds (fun _ => True) (ev value) (ev value) :=
    fun value => leniency_holds_iff.2 (hev value)
  exact leniency_holds_iff.1 (step_holds leniency.tie Closed.everything
    (fun value _ => hparts value) trivial) machine

end

theorem eval_ne_stuck (fuel : Nat) (expression : Value) (machine : Machine) :
    eval fuel expression machine ≠ .stuck := by
  induction fuel generalizing expression machine with
  | zero => exact nofun
  | succ fuel ih => exact step_ne_stuck ih expression machine

/-! ## Operators are given what they take -/

section

variable (otherwise : Operator → List Value → Action Value)

/-- Runs an operator if its operands are as many as it takes, and does something else
if they are not. -/
def Operator.runGuarded (ev : Value → Action Value) (operator : Operator)
    (operands : List Value) : Action Value :=
  if operator.arity.accepts operands.length then operator.run ev operands
  else otherwise operator operands

/-- Applies what `head` names, with the guard in front of the operator. -/
def applyGuarded (ev : Value → Action Value) (head arguments : Value) : Action Value :=
  match head with
  | .symbol name =>
      match OperatorTable.standard.find? name with
      | some entry => do
          let operands ← Action.ofExcept (entry.operands arguments)
          entry.operator.runGuarded otherwise ev operands
      | none => Action.fail (.unknownOperator name)
  | other => Action.fail (.notAnOperator other.kind)

/-- One step of evaluation, with the guard in it. -/
def stepGuarded (ev : Value → Action Value) : Value → Action Value
  | .pair head arguments => applyGuarded otherwise ev head arguments
  | other => step ev other

/-- Evaluates an expression, with the guard in front of every operator on the way. -/
def evalGuarded : Nat → Value → Action Value
  | 0, _ => fun _ => .outOfFuel
  | fuel + 1, expression => stepGuarded otherwise (evalGuarded fuel) expression

/-- Every operator is given operands that were counted against its own arity. -/
theorem applyGuarded_eq (ev : Value → Action Value) (head arguments : Value) :
    applyGuarded otherwise ev head arguments = apply ev head arguments := by
  cases head with
  | symbol name =>
      cases hentry : OperatorTable.standard.find? name with
      | some entry =>
          simp only [applyGuarded, apply, hentry]
          funext machine
          cases hoperands : entry.operands arguments with
          | ok operands =>
              have hcount := (operands_eq_ok hentry hoperands).2
              show entry.operator.runGuarded otherwise ev operands machine = _
              rw [Operator.runGuarded, if_pos hcount]
              rfl
          | error error => rfl
      | none => simp only [applyGuarded, apply, hentry]
  | int | real | pair | empty => rfl

theorem evalGuarded_eq (fuel : Nat) : evalGuarded otherwise fuel = eval fuel := by
  induction fuel with
  | zero => rfl
  | succ fuel ih =>
      funext expression
      rw [evalGuarded, ih, eval]
      cases expression with
      | pair head arguments => exact applyGuarded_eq otherwise (eval fuel) head arguments
      | int | real | symbol | empty => rfl

/-- In every evaluation every operator that is dispatched to is given as many operands
as it takes, so that it would not show if something else were done where it is not, and
no operator looks for an operand behind the last one it was given. -/
theorem dispatch_in_range (fuel : Nat) (expression : Value) (machine : Machine) :
    evalGuarded otherwise fuel expression machine = eval fuel expression machine ∧
      eval fuel expression machine ≠ .stuck ∧
      ∀ (operator : Operator) (operands : List Value),
        operator.arity.accepts operands.length = true →
        operator.run (eval fuel) operands machine ≠ .stuck :=
  ⟨by rw [evalGuarded_eq], eval_ne_stuck fuel expression machine,
    fun _ _ hcount => run_ne_stuck (eval_ne_stuck fuel) hcount machine⟩

end

/-- `(eval (quote (cons 1 ())))`, with a guard that is stuck where the number of operands
is wrong, and `cons` by itself with the two operands that it takes. -/
theorem dispatch_in_range_cons :
    evalGuarded (fun _ _ => Action.stuck) 3
        (.list [.symbol "eval", .list [.symbol "quote", .list [.symbol "cons", .int 1, .empty]]])
        ⟨.empty, .unbounded⟩ =
      .done (.ok (.pair (.int 1) .empty)) ⟨.empty, .unbounded⟩ ∧
    Operator.cons.run (eval 1) [.int 1, .empty] ⟨.empty, .unbounded⟩ ≠ .stuck := by
  have hcount : Operator.cons.arity.accepts [Value.int 1, .empty].length = true := by decide
  constructor
  · rw [(dispatch_in_range (fun _ _ => Action.stuck) 3 _ _).1]
    rfl
  · exact (dispatch_in_range (fun _ _ => Action.stuck) 1 .empty ⟨.empty, .unbounded⟩).2.2
      .cons [.int 1, .empty] hcount

end Sexpr

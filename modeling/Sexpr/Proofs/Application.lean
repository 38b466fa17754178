import Sexpr.Eval.Basic
import Sexpr.Proofs.Names
import Sexpr.Proofs.WellFormed

/-!
# Applying an operator by its name

An application that names an operator, with as many operands as it takes, does
what the operator does. Numbers stand for themselves, so an operand that is a
number is its own value.
-/

namespace Sexpr

namespace Value

theorem elements_list (items : List Value) : (list items).elements = items := by
  induction items with
  | nil => rfl
  | cons item items ih => exact congrArg (item :: ·) ih

theorem terminal_list (items : List Value) : (list items).terminal = empty := by
  induction items with
  | nil => rfl
  | cons item items ih => exact ih

/-- A chain is its elements and what it ends in. -/
theorem chain_elements (value : Value) : chain value.elements value.terminal = value := by
  induction value with
  | pair car cdr _ ih => exact congrArg (pair car) ih
  | int | real | symbol | empty => rfl

theorem list_elements {value : Value} (h : value.terminal = empty) :
    list value.elements = value := by
  have hchain := chain_elements value
  rw [h] at hchain
  exact hchain

end Value

/-- An action goes on where the one before it has ended. -/
theorem Action.bind_of_done {α β : Type} {action : Action α} {next : α → Action β} {answer : α}
    {machine after : Machine} (h : action machine = .done (.ok answer) after) :
    (action >>= next) machine = next answer after := by
  simp only [Bind.bind, Action.bind, h]

/-- An action that has failed is the last. -/
theorem Action.bind_of_error {α β : Type} {action : Action α} {next : α → Action β}
    {error : Error} {machine after : Machine} (h : action machine = .done (.error error) after) :
    (action >>= next) machine = .done (.error error) after := by
  simp only [Bind.bind, Action.bind, h]

/-- An action that has ended has failed in its first part, or its second part
has ended. -/
theorem Action.bind_eq_done {α β : Type} {action : Action α} {next : α → Action β}
    {machine after : Machine} {answer : Except Error β}
    (h : (action >>= next) machine = .done answer after) :
    (∃ error, action machine = .done (.error error) after ∧ answer = .error error) ∨
      ∃ value middle, action machine = .done (.ok value) middle ∧
        next value middle = .done answer after := by
  simp only [Bind.bind, Action.bind] at h
  split at h
  · next value middle hvalue => exact .inr ⟨value, middle, hvalue, h⟩
  · next error middle herror =>
      cases h
      exact .inl ⟨error, herror, rfl⟩
  · cases h
  · cases h

theorem Action.bind_eq_ok {α β : Type} {action : Action α} {next : α → Action β}
    {machine after : Machine} {answer : β}
    (h : (action >>= next) machine = .done (.ok answer) after) :
    ∃ value middle, action machine = .done (.ok value) middle ∧
      next value middle = .done (.ok answer) after := by
  obtain ⟨error, -, herror⟩ | hboth := Action.bind_eq_done h
  · cases herror
  · exact hboth

theorem Action.ofExcept_eq_done {α : Type} {answer result : Except Error α}
    {machine after : Machine} (h : Action.ofExcept answer machine = .done result after) :
    answer = result ∧ after = machine := by
  cases h
  exact ⟨rfl, rfl⟩

theorem Action.ofStep_eq_ok {σ : Type} {step : Except Error Unit × σ} {state : σ}
    {machine after : Machine} (h : Action.ofStep step machine = .done (.ok state) after) :
    step = (.ok (), state) ∧ after = machine := by
  obtain ⟨answer, next⟩ := step
  cases answer with
  | ok =>
      cases h
      exact ⟨rfl, rfl⟩
  | error => cases h

/-- The application of an operator to operands. -/
def application (operator : Operator) (operands : List Value) : Value :=
  .pair (.symbol operator.name) (.list operands)

theorem find?_standard_name (operator : Operator) :
    OperatorTable.standard.find? operator.name = some ⟨operator, operator.arity⟩ := by
  rw [OperatorTable.find?_standard, Operator.ofName?_eq_some_iff.2 rfl]
  rfl

/-- The end of the chain is looked at first, and then the number of operands. -/
theorem OperatorEntry.operands_eq (entry : OperatorEntry) (arguments : Value) :
    entry.operands arguments =
      if arguments.terminal = .empty then
        if entry.arity.accepts arguments.elements.length then .ok arguments.elements
        else .error (.arityMismatch entry.operator.name entry.arity arguments.elements.length)
      else .error .malformedList := by
  rw [operands, Value.toList_eq]
  by_cases hend : arguments.terminal = .empty
  · rw [if_pos hend, if_pos hend]
  · rw [if_neg hend, if_neg hend]

theorem OperatorEntry.operands_list (entry : OperatorEntry) (items : List Value) :
    entry.operands (.list items) =
      if entry.arity.accepts items.length then .ok items
      else .error (.arityMismatch entry.operator.name entry.arity items.length) := by
  rw [operands_eq, if_pos (Value.terminal_list items), Value.elements_list]

/-- What an operator is given are the elements of a list, as many as it takes. -/
theorem OperatorEntry.eq_list_of_operands {entry : OperatorEntry} {arguments : Value}
    {operands : List Value} (h : entry.operands arguments = .ok operands) :
    arguments = .list operands ∧ entry.arity.accepts operands.length = true := by
  rw [operands_eq] at h
  split at h
  · next hend =>
      split at h
      · next hcount =>
          cases h
          exact ⟨(Value.list_elements hend).symm, hcount⟩
      · cases h
  · cases h

/-- An application that names an operator takes its operands apart, and then the
operator runs. -/
theorem eval_named (operator : Operator) (arguments : Value) (fuel : Nat) :
    eval (fuel + 1) (.pair (.symbol operator.name) arguments) =
      (Action.ofExcept (OperatorEntry.operands ⟨operator, operator.arity⟩ arguments) >>=
        operator.run (eval fuel)) := by
  rw [eval, step, apply]
  simp only [find?_standard_name]

theorem eval_application {operator : Operator} {operands : List Value}
    (h : operator.arity.accepts operands.length = true) (fuel : Nat) (machine : Machine) :
    eval (fuel + 1) (application operator operands) machine =
      operator.run (eval fuel) operands machine := by
  rw [application, eval_named, OperatorEntry.operands_list, if_pos h]
  rfl

/-- Behind an application that has succeeded, its operator has run. -/
theorem run_of_eval_application {operator : Operator} {operands : List Value} {fuel : Nat}
    {machine after : Machine} {value : Value}
    (h : eval fuel (application operator operands) machine = .done (.ok value) after) :
    operator.arity.accepts operands.length = true ∧
      ∃ less, operator.run (eval less) operands machine = .done (.ok value) after := by
  cases fuel with
  | zero => cases h
  | succ fuel =>
      cases hcount : operator.arity.accepts operands.length with
      | true =>
          rw [eval_application hcount] at h
          exact ⟨rfl, fuel, h⟩
      | false =>
          rw [application, eval_named, OperatorEntry.operands_list,
            if_neg (Bool.eq_false_iff.1 hcount)] at h
          cases h

/-! ## Operators that set their first operand apart

Both of them ask for another operand. With the first one given they are what they say on
paper. -/

theorem two_le_length_cons {α : Type} (first : α) {others : List α} (h : others ≠ []) :
    2 ≤ (first :: others).length := by
  have := List.length_pos_iff.2 h
  rw [List.length_cons]
  omega

theorem evalSubtract_cons (ev : Value → Action Value) (first : Value) (others : List Value) :
    Operator.evalSubtract ev (first :: others) = (do
      let value ← ev first
      let running ← Action.ofStep (RunningTotal.sum.add value)
      let running ← Operator.addInto ev running.negate others
      return running.negate.finish) :=
  rfl

theorem evalDivide_cons (ev : Value → Action Value) (first : Value) (others : List Value) :
    Operator.evalDivide ev (first :: others) = (do
      let value ← ev first
      let dividend ← Action.ofStep (RunningTotal.product.multiply value)
      let divisor ← Operator.multiplyInto ev .product others
      if divisor.isZero then Action.fail .divisionByZero
      else return (dividend.divide divisor).finish) :=
  rfl

end Sexpr

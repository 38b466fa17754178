import Sexpr.Eval.Operators
import Sexpr.Operator.Table

/-!
# Evaluation

A pair applies the operator its first half names to the operands in its second
half, a symbol stands for what it is bound to, and every other value stands for
itself. One step of this is `step`, which is handed the evaluation of whatever
it has to evaluate; `eval` closes the circle.

Evaluation need not end, because `eval` may be named as an operator on data
that names it again. The fuel bounds how deeply evaluations are nested, and
nothing else: a run that ends has the same answer under any larger fuel.
-/

namespace Sexpr

section

variable (ev : Value → Action Value)

/-- Applies what `head` names to operands. -/
def apply (head arguments : Value) : Action Value :=
  match head with
  | .symbol name =>
      match OperatorTable.standard.find? name with
      | some entry => do
          let operands ← Action.ofExcept (entry.operands arguments)
          entry.operator.run ev operands
      | none => Action.fail (.unknownOperator name)
  | other => Action.fail (.notAnOperator other.kind)

/-- Evaluates an expression, given how its parts are evaluated. -/
def step : Value → Action Value
  | .pair head arguments => apply ev head arguments
  | .symbol name => Action.lookup name
  | atom => pure atom

end

/-- Evaluates an expression, with evaluations nested no deeper than the fuel. -/
def eval : Nat → Value → Action Value
  | 0, _ => fun _ => .outOfFuel
  | fuel + 1, expression => step (eval fuel) expression

/-- Evaluates an expression in an environment. What it prints is in the sink of
the state it leaves, for standard output. -/
def evaluate (fuel : Nat) (expression : Value) (environment : Environment) :
    Run Machine (Except Error Value) :=
  eval fuel expression ⟨environment, .unbounded⟩

/-- An evaluator over an environment in full. Its sink is not shown. -/
def Machine.tagged (machine : Machine) : String :=
  "Evaluator \x7b env: " ++ machine.environment.tagged ++ ", .. \x7d"

end Sexpr

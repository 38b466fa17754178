import Sexpr.NameMap
import Sexpr.Operator.Basic
import Sexpr.Value.Chain

/-!
# The table of operators

Evaluation finds an operator by looking up the symbol of an applied list, and
gets from the table all it needs before it may run the operator: which one it
is and how many operands it takes. Taking the operands apart and counting them
evaluates nothing, so an application that is turned away here has no effect.
-/

namespace Sexpr

/-- What the table holds under the symbol of an operator. -/
structure OperatorEntry where
  operator : Operator
  arity : Arity
deriving DecidableEq, Inhabited

/-- Operators by their symbols. -/
abbrev OperatorTable := NameMap OperatorEntry

/-- The table of all operators. -/
def OperatorTable.standard : OperatorTable :=
  NameMap.ofList (Operator.all.map fun operator => (operator.name, ⟨operator, operator.arity⟩))

namespace OperatorEntry

/-- The operands of an application as a list, if there are as many as the
operator takes. A chain that ends badly is reported before its length is. -/
def operands (entry : OperatorEntry) (arguments : Value) : Except Error (List Value) :=
  match arguments.toList with
  | .error error => .error error
  | .ok operands =>
      if entry.arity.accepts operands.length then .ok operands
      else .error (.arityMismatch entry.operator.name entry.arity operands.length)

def tagged (entry : OperatorEntry) : String :=
  "Operator \x7b builtin: " ++ entry.operator.tagged ++ ", arity: " ++ entry.arity.tagged ++
    ", .. \x7d"

end OperatorEntry

end Sexpr

import Sexpr.Eval.Action
import Sexpr.Numeric.Ascent
import Sexpr.Numeric.RunningTotal
import Sexpr.Operator.Basic
import Sexpr.Value.Canonical
import Sexpr.Value.Chain

/-!
# What the operators do

Every operator is an action on its operands, given how an expression is
evaluated. None of them is recursive in evaluation: that is left to whoever
supplies `ev`, and it is what makes each operator a small fact to reason about.

An operand is looked for at the moment it is needed, and an operator whose
operand is missing is stuck.
-/

namespace Sexpr

namespace Operator

/-! ## Operands -/

def operand (operands : List Value) (position : Nat) : Action Value :=
  match operands[position]? with
  | some expression => pure expression
  | none => Action.stuck

/-- The operands from a position on. There may be none left, but the position
must not lie behind the last of them. -/
def operandsFrom (operands : List Value) (position : Nat) : Action (List Value) :=
  if position ≤ operands.length then pure (operands.drop position)
  else Action.stuck

section

variable (ev : Value → Action Value)

/-! ## Arithmetic -/

/-- Evaluates operands from left to right and adds them to a total. -/
def addInto (running : RunningTotal) : List Value → Action RunningTotal
  | [] => pure running
  | expression :: rest => do
      let value ← ev expression
      let running ← Action.ofStep (running.add value)
      addInto running rest

/-- Evaluates operands from left to right and multiplies a total by them, until
the total is zero. The operands behind that one are not evaluated. -/
def multiplyInto (running : RunningTotal) : List Value → Action RunningTotal
  | [] => pure running
  | expression :: rest => do
      let value ← ev expression
      let running ← Action.ofStep (running.multiply value)
      if running.isZero then pure running else multiplyInto running rest

def evalAdd (operands : List Value) : Action Value := do
  let running ← addInto ev .sum operands
  return running.finish

/-- The first operand less the others. The others are added to its negative,
and the sign is changed back in the end. -/
def evalSubtract (operands : List Value) : Action Value := do
  let first ← operand operands 0
  let value ← ev first
  let running ← Action.ofStep (RunningTotal.sum.add value)
  let rest ← operandsFrom operands 1
  let running ← addInto ev running.negate rest
  return running.negate.finish

def evalMultiply (operands : List Value) : Action Value := do
  let running ← multiplyInto ev .product operands
  return running.finish

/-- The first operand divided by the product of the others. -/
def evalDivide (operands : List Value) : Action Value := do
  let first ← operand operands 0
  let value ← ev first
  let dividend ← Action.ofStep (RunningTotal.product.multiply value)
  let rest ← operandsFrom operands 1
  let divisor ← multiplyInto ev .product rest
  if divisor.isZero then Action.fail .divisionByZero
  else return (dividend.divide divisor).finish

def evalCeiling (operands : List Value) : Action Value := do
  let expression ← operand operands 0
  let value ← ev expression
  Action.ofExcept value.ceiling

def evalFloor (operands : List Value) : Action Value := do
  let expression ← operand operands 0
  let value ← ev expression
  Action.ofExcept value.floor

/-! ## Conditions -/

/-- Evaluates operands from left to right for as long as they ascend. The
operands behind the first one that breaks the ascent are not evaluated. -/
def ascendThrough (ascent : Ascent) : List Value → Action Ascent
  | [] => pure ascent
  | expression :: rest => do
      let value ← ev expression
      let ascent ← Action.ofStep (ascent.next value)
      if ascent.holds then ascendThrough ascent rest else pure ascent

def evalLess (operands : List Value) : Action Value := do
  let ascent ← ascendThrough ev .start operands
  return .truth ascent.holds

def evalNegation (operands : List Value) : Action Value := do
  let expression ← operand operands 0
  let value ← ev expression
  return .truth value.isFalsy

/-- The second operand if the first one counts as true, and else the third; the
empty list where there is no third. Only one of the two is evaluated. -/
def evalChoice (operands : List Value) : Action Value := do
  let condition ← operand operands 0
  let value ← ev condition
  if value.isFalsy then
    match operands[2]? with
    | some alternative => ev alternative
    | none => return .empty
  else
    let consequent ← operand operands 1
    ev consequent

/-! ## Lists -/

/-- The operand as it stands. -/
def evalQuote (operands : List Value) : Action Value :=
  operand operands 0

/-- The first operand put in front of the second. The second is evaluated first,
and must be something that may stand where a list may. -/
def evalCons (operands : List Value) : Action Value := do
  let second ← operand operands 1
  let tail ← ev second
  if tail.isList then
    let first ← operand operands 0
    let head ← ev first
    return .pair head tail
  else
    Action.fail (tail.mismatch .pair)

def evalCar (operands : List Value) : Action Value := do
  let expression ← operand operands 0
  let value ← ev expression
  let halves ← Action.ofExcept (value.split)
  return halves.1

def evalCdr (operands : List Value) : Action Value := do
  let expression ← operand operands 0
  let value ← ev expression
  let halves ← Action.ofExcept (value.split)
  return halves.2

def evalNullp (operands : List Value) : Action Value := do
  let expression ← operand operands 0
  let value ← ev expression
  return .truth value.isEmpty

/-! ## Effects -/

/-- Binds the first operand, a symbol, to the value of the second. The name is
checked before the value is asked for. -/
def evalDefine (operands : List Value) : Action Value := do
  let target ← operand operands 0
  let name ← Action.ofExcept target.asSymbol
  Action.ofExcept (Environment.checkDefinable name)
  let expression ← operand operands 1
  let value ← ev expression
  Action.define name value
  return .empty

/-- Prints the operand on a line of its own. Its text is complete before any of
it is written. -/
def evalPrint (operands : List Value) : Action Value := do
  let expression ← operand operands 0
  let value ← ev expression
  let text ← Action.ofExcept value.render
  Action.emitLine text
  return .empty

/-- Evaluates the operand, and then what came of it. -/
def evalEval (operands : List Value) : Action Value := do
  let expression ← operand operands 0
  let code ← ev expression
  ev code

/-- What an operator does with its operands. -/
def run (operator : Operator) (operands : List Value) : Action Value :=
  match operator with
  | add => evalAdd ev operands
  | subtract => evalSubtract ev operands
  | multiply => evalMultiply ev operands
  | divide => evalDivide ev operands
  | ceiling => evalCeiling ev operands
  | floor => evalFloor ev operands
  | less => evalLess ev operands
  | negation => evalNegation ev operands
  | choice => evalChoice ev operands
  | quote => evalQuote operands
  | cons => evalCons ev operands
  | car => evalCar ev operands
  | cdr => evalCdr ev operands
  | nullp => evalNullp ev operands
  | define => evalDefine ev operands
  | print => evalPrint ev operands
  | eval => evalEval ev operands

end

end Operator

end Sexpr

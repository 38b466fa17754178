import Sexpr.Numeric.Basic

/-!
# Running totals

Sums and products run over any number of operands. The total is kept as a
binary64 number throughout, and beside it whether all operands were integers;
only then is the result an integer again, cut off at its point and held at the
limits of 64 bits. So one real among the operands makes the result a real,
wherever it stands.
-/

namespace Sexpr

/-- The total of the operands so far, and whether all of them were integers. -/
structure RunningTotal where
  isInt : Bool
  total : Float
deriving DecidableEq, Inhabited

namespace RunningTotal

/-- The sum of nothing. -/
def sum : RunningTotal := ⟨true, 0.0⟩

/-- The product of nothing. -/
def product : RunningTotal := ⟨true, 1.0⟩

/-- Takes one more operand into the total. -/
def accept (combine : Float → Float → Float) (running : RunningTotal) :
    Value → Except Error Unit × RunningTotal
  | .int n => (.ok (), ⟨running.isInt, combine running.total (floatOfInt n)⟩)
  | .real x => (.ok (), ⟨false, combine running.total x⟩)
  | other => (.error (.notNumeric other.kind), running)

def add : RunningTotal → Value → Except Error Unit × RunningTotal :=
  accept (· + ·)

def multiply : RunningTotal → Value → Except Error Unit × RunningTotal :=
  accept (· * ·)

def negate (running : RunningTotal) : RunningTotal :=
  ⟨running.isInt, -running.total⟩

/-- Whether the total is zero, of either sign. -/
def isZero (running : RunningTotal) : Bool :=
  running.total == 0.0

/-- The quotient of two totals. It is an integer if both of them are. -/
def divide (dividend divisor : RunningTotal) : RunningTotal :=
  ⟨dividend.isInt && divisor.isInt, dividend.total / divisor.total⟩

def finish (running : RunningTotal) : Value :=
  if running.isInt then
    .int ((Binary64.ofFloat running.total).toInt64 .towardZero)
  else
    .real running.total

end RunningTotal

end Sexpr

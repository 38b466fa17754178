/-!
# Arities

An operator takes a fixed number of operands, or at least so many, or a number
between two bounds, or any number. The count is checked before anything is
evaluated, so a wrong count has no effect besides its error.
-/

namespace Sexpr

/-- The operand counts an operator accepts. -/
inductive Arity where
  | exactly (count : Nat)
  | atLeast (least : Nat)
  | range (least most : Nat)
  | any
deriving DecidableEq, Repr, Inhabited

namespace Arity

/-- Whether `n` operands are accepted. Both bounds of a range belong to it. -/
def accepts : Arity → Nat → Bool
  | exactly count, n => n == count
  | atLeast least, n => decide (least ≤ n)
  | range least most, n => decide (least ≤ n) && decide (n ≤ most)
  | any, _ => true

def text : Arity → String
  | exactly count => s!"exactly {count}"
  | atLeast least => s!"at least {least}"
  | range least most => s!"{least} to {most}"
  | any => "any number of"

def tagged : Arity → String
  | exactly count => s!"Exactly({count})"
  | atLeast least => s!"AtLeast({least})"
  | range least most => s!"Range({least}, {most})"
  | any => "Any"

end Arity

end Sexpr

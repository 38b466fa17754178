import Sexpr.Error

/-!
# Values

A value is a number, a symbol, a pair of two values, or the empty list. There
is no list besides pairs: a proper list is a chain of pairs that ends in the
empty list, and a chain may end in any other atom as well. Programs are values
too, so the same type holds what is evaluated and what evaluation gives back.

Integers are 64-bit words and reals are binary64 numbers, because both limits
show in answers. There is one NaN: what sign and payload it has is not told
apart, since nothing that is done with a value asks for them. Two values are
equal as Lean terms when they agree in everything else, the sign of a zero
included; the equality a program sees is `Value.beq`, in which the two zeros
are equal and a NaN differs from itself.
-/

namespace Sexpr

/-- A number, a symbol, a pair, or the empty list. -/
inductive Value where
  | int (number : Int64)
  | real (number : Float)
  | symbol (name : String)
  | pair (car cdr : Value)
  | empty
deriving DecidableEq, Inhabited

namespace Value

/-! ## Building -/

/-- The pairs of `items` in order, chained onto `tail`. -/
def chain (items : List Value) (tail : Value) : Value :=
  items.foldr pair tail

def list (items : List Value) : Value :=
  chain items empty

/-- Truth values are the integers one and zero. -/
def truth (flag : Bool) : Value :=
  int (if flag then 1 else 0)

/-! ## Taking apart -/

def kind : Value → Kind
  | int _ => .int
  | real _ => .real
  | symbol _ => .symbol
  | pair .. => .pair
  | empty => .empty

def isEmpty : Value → Bool
  | empty => true
  | _ => false

/-- Whether a value may stand where a list may: a pair or the empty list. A
pair is let through whatever its chain ends in. -/
def isList : Value → Bool
  | pair .. | empty => true
  | _ => false

/-- Whether a condition counts as false. Only the number zero does, of either
kind and either sign. -/
def isFalsy : Value → Bool
  | int n => n == 0
  | real x => x == 0.0
  | _ => false

/-- The error of a value that is not of the kind it should be. -/
def mismatch (value : Value) (expected : Kind) : Error :=
  .typeMismatch expected value.kind

def asInt : Value → Except Error Int64
  | int n => .ok n
  | other => .error (other.mismatch .int)

def asReal : Value → Except Error Float
  | real x => .ok x
  | other => .error (other.mismatch .real)

def asSymbol : Value → Except Error String
  | symbol name => .ok name
  | other => .error (other.mismatch .symbol)

def asCar : Value → Except Error Value
  | pair car _ => .ok car
  | other => .error (other.mismatch .pair)

def asCdr : Value → Except Error Value
  | pair _ cdr => .ok cdr
  | other => .error (other.mismatch .pair)

/-- Takes a value out of its place: the value, and the empty list that is left
there. -/
def take (value : Value) : Value × Value :=
  (value, empty)

/-! ## Comparing and copying

Both walk a chain from its front, and recurse only into the elements. -/

/-- Equality as a program sees it: the same shape, the same integers and names,
and reals that compare equal as numbers. -/
def beq : Value → Value → Bool
  | int m, int n => m == n
  | real x, real y => x == y
  | symbol a, symbol b => a == b
  | pair a b, pair c d => beq a c && beq b d
  | empty, empty => true
  | _, _ => false

instance : BEq Value := ⟨beq⟩

/-- Copies a chain element by element. The copied elements wait in `copied`,
the last one first, until the end of the chain is reached and the pairs are
built again from there. -/
def copyOnto (copied : List Value) : Value → Value
  | pair car cdr => copyOnto (copyOnto [] car :: copied) cdr
  | terminal => copied.foldl (fun tail head => pair head tail) terminal

/-- A copy that shares no pair with the value it was made from. -/
def copy (value : Value) : Value :=
  copyOnto [] value

end Value

end Sexpr

import Sexpr.Binary64
import Sexpr.Value.Basic

/-!
# Values as numbers

Arithmetic is binary64 arithmetic: an integer takes part in it as the nearest
binary64 number. Operations that work through many numbers do it one value at a
time, on a state of their own. A step answers whether it succeeded, and gives
the state that it leaves in either case, which is the one a following step starts
from. That a value that is no number leaves the state alone is then a fact about
each of these steps.
-/

namespace Sexpr

/-- A 64-bit integer as the nearest binary64 number. -/
def floatOfInt (n : Int64) : Float :=
  Float.ofInt n.toInt

namespace Value

def number : Value → Except Error Float
  | int n => .ok (floatOfInt n)
  | real x => .ok x
  | other => .error (.notNumeric other.kind)

/-- Rounds a number to an integer. An integer is one already, and is taken over
without a detour through binary64. -/
def rounded (rounding : Binary64.Rounding) : Value → Except Error Value
  | int n => .ok (int n)
  | real x => .ok (int ((Binary64.ofFloat x).toInt64 rounding))
  | other => .error (.notNumeric other.kind)

/-- The least integer that is not below a number. -/
def ceiling (value : Value) : Except Error Value :=
  value.rounded .up

/-- The greatest integer that is not above a number. -/
def floor (value : Value) : Except Error Value :=
  value.rounded .down

end Value

/-- Feeds values to a state one by one, and says of each whether its step
succeeded and what the state was after it. -/
def feed {σ : Type} (step : σ → Value → Except Error Unit × σ) :
    σ → List Value → List (Except Error Unit × σ)
  | _, [] => []
  | state, value :: values =>
      let fed := step state value
      fed :: feed step fed.2 values

/-- The state at the end of feeding. -/
def feedLast {σ : Type} (step : σ → Value → Except Error Unit × σ) (state : σ)
    (values : List Value) : σ :=
  values.foldl (fun state value => (step state value).2) state

end Sexpr

import Sexpr.Binary64

/-!
# The shortest decimal that reads back

A binary64 number stands for a whole interval of reals: all those that round to
it. Its two ends belong to it when the significand is even, because a tie goes
to the even neighbour. Among the decimals in that interval the ones with the
fewest digits are the shortest, and of these the nearest to the number is
chosen. Only the two decimals next to the number on a decimal grid need to be
tried: if any point of the grid lies in the interval, so does one of these two.

All of it is exact arithmetic on natural numbers. The unit is a quarter of the
number's last binary place, in which both ends of the interval are whole.
-/

namespace Sexpr

/-- The decimal `coefficient * 10 ^ exponent`. -/
structure Decimal where
  coefficient : Nat
  exponent : Int
deriving DecidableEq, Repr, Inhabited

namespace Decimal

/-- Which of two equally near decimals is taken. -/
inductive Tie where
  /-- The larger one. -/
  | away
  /-- The one with an even last digit. -/
  | toEven
deriving DecidableEq, Repr

/-- The rounding interval of a number, in quarters of its last place: the
number is `4 * significand` of them. -/
structure Interval where
  low : Nat
  middle : Nat
  high : Nat
  /-- Whether the two ends belong to the interval. -/
  closed : Bool
  /-- The binary exponent of the unit. -/
  exponent : Int

/-- The interval of the number `significand * 2 ^ exponent`. Below a power of
two the numbers lie twice as close, unless it is the smallest one that has its
leading bit. -/
def interval (significand : Nat) (exponent : Int) : Interval :=
  let closeBelow :=
    significand == Binary64.leadingBit && exponent != Binary64.leastExponent
  { low := 4 * significand - (if closeBelow then 1 else 2)
    middle := 4 * significand
    high := 4 * significand + 2
    closed := significand % 2 == 0
    exponent := exponent - 2 }

/-- `base ^ exponent` as a fraction. -/
def powerFraction (base : Nat) : Int → Nat × Nat
  | .ofNat e => (Nat.pow base e, 1)
  | .negSucc e => (1, Nat.pow base (e + 1))

def width (n : Nat) : Nat :=
  (Nat.toDigits 10 n).length

/-- The exponent of the leading digit of a positive fraction. -/
def leadingExponent (numerator denominator : Nat) : Int :=
  if denominator ≤ numerator then
    (width (numerator / denominator) : Int) - 1
  else
    let places := width (denominator / numerator)
    if denominator = numerator * Nat.pow 10 (places - 1) then 1 - (places : Int)
    else -(places : Int)

/-- The coefficient to take on the grid of multiples of `10 ^ place`, if one of
the two multiples next to the number lies in its interval. -/
def onGrid? (tie : Tie) (i : Interval) (place : Int) : Option Nat :=
  let (two, twoBelow) := powerFraction 2 i.exponent
  let (tenBelow, ten) := powerFraction 10 place
  let scale := two * ten
  let grid := twoBelow * tenBelow
  let below := i.middle * scale / grid
  let left := i.middle * scale % grid
  let inside (coefficient : Nat) : Bool :=
    let point := coefficient * grid
    if i.closed then
      decide (i.low * scale ≤ point) && decide (point ≤ i.high * scale)
    else
      decide (i.low * scale < point) && decide (point < i.high * scale)
  match inside below, inside (below + 1) with
  | false, false => none
  | true, false => some below
  | false, true => some (below + 1)
  | true, true =>
      if 2 * left < grid then some below
      else if grid < 2 * left then some (below + 1)
      else
        match tie with
        | .away => some (below + 1)
        | .toEven => some (if below % 2 = 0 then below else below + 1)

/-- Tries ever finer grids, so many of them. Seventeen digits always read back,
so the last grid is never tried in vain. -/
def search (tie : Tie) (i : Interval) : Nat → Int → Decimal
  | 0, place => ⟨0, place⟩
  | grids + 1, place =>
      match onGrid? tie i place with
      | some coefficient => ⟨coefficient, place⟩
      | none => search tie i grids (place - 1)

/-- The same decimal without a zero at the end of its coefficient. A coefficient
found on the first grid may be ten; on any later grid it ends in no zero. -/
def dropZero (d : Decimal) : Decimal :=
  if d.coefficient % 10 = 0 then ⟨d.coefficient / 10, d.exponent + 1⟩ else d

/-- The shortest decimal of the positive number `significand * 2 ^ exponent`. -/
def shortest (tie : Tie) (significand : Nat) (exponent : Int) : Decimal :=
  let (two, twoBelow) := powerFraction 2 exponent
  let first := leadingExponent (significand * two) twoBelow
  (search tie (interval significand exponent) 17 first).dropZero

end Decimal

end Sexpr

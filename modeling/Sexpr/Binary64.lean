/-!
# Binary64 numbers, exactly

A finite binary64 number is a whole number times a power of two. Everything
this library decides about a real beyond its arithmetic, namely its decimal
text and its rounding to an integer, is decided on that form in exact integer
arithmetic, so no answer depends on a rounding that happens on the way.
-/

namespace Sexpr

/-- A binary64 number taken apart. The two zeros differ in their sign and have
the significand zero. -/
inductive Binary64 where
  | nan
  | infinite (negative : Bool)
  /-- The number is `significand * 2 ^ exponent`, or its negative. -/
  | finite (negative : Bool) (significand : Nat) (exponent : Int)
deriving DecidableEq, Repr, Inhabited

namespace Binary64

/-- The exponent of the smallest numbers. -/
def leastExponent : Int := -1074

/-- The significand of a number whose leading bit is not stored begins here. -/
def leadingBit : Nat := 0x10000000000000

/-- Reads the three fields of the bit pattern. The leading bit is not stored
but for the smallest exponent, where there is none. -/
def ofFloat (x : Float) : Binary64 :=
  let bits := x.toBits.toNat
  let negative := bits / (leadingBit * 0x800) == 1
  let biased : Nat := bits / leadingBit % 0x800
  let fraction : Nat := bits % leadingBit
  if biased = 0x7ff then
    if fraction = 0 then infinite negative else nan
  else if biased = 0 then
    finite negative fraction leastExponent
  else
    finite negative (leadingBit + fraction) (biased - 1075)

/-! ## Rounding to an integer -/

/-- Which neighbouring integer stands for a number between two of them. -/
inductive Rounding where
  | towardZero
  | up
  | down
deriving DecidableEq, Repr

/-- The whole part of `significand * 2 ^ exponent`, and whether something is
left over. -/
def wholePart (significand : Nat) : Int → Nat × Bool
  | .ofNat shift => (significand * Nat.pow 2 shift, false)
  | .negSucc shift =>
      let unit := Nat.pow 2 (shift + 1)
      (significand / unit, significand % unit != 0)

/-- The integer a finite number is rounded to. -/
def roundFinite (rounding : Rounding) (negative : Bool) (significand : Nat)
    (exponent : Int) : Int :=
  let (whole, inexact) := wholePart significand exponent
  let away : Bool :=
    match rounding with
    | .towardZero => false
    | .up => inexact && !negative
    | .down => inexact && negative
  let magnitude : Int := if away then whole + 1 else whole
  if negative then -magnitude else magnitude

/-- The nearest 64-bit integer to any integer. -/
def saturate (n : Int) : Int64 :=
  if n < Int64.minValue.toInt then Int64.minValue
  else if Int64.maxValue.toInt < n then Int64.maxValue
  else Int64.ofInt n

/-- A number as a 64-bit integer: rounded, and held at the limits. What is not
a number is zero. -/
def toInt64 (rounding : Rounding) : Binary64 → Int64
  | nan => 0
  | infinite negative => if negative then Int64.minValue else Int64.maxValue
  | finite negative significand exponent =>
      saturate (roundFinite rounding negative significand exponent)

end Binary64

end Sexpr

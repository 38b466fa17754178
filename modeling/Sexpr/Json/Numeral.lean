/-!
# Numerals

A numeral is an optional minus sign, digits, optionally a fraction, optionally
an exponent. It names an integer if it has neither of the last two parts and is
not minus zero.

As a real it is read in binary64 arithmetic and not exactly. The digits are
collected into a whole number for as long as that fits 64 bits. A digit before
the point that does not fit is left out but still counts as a place, and the
digits behind it are left out too; a digit after the point that does not fit
ends the collecting. Then the number is scaled by one multiplication or
division with a power of ten, or by more divisions where the power is out of
range. A numeral too large for that names no number.
-/

namespace Sexpr

structure Numeral where
  negative : Bool
  whole : List Char
  fraction : Option (List Char)
  /-- Whether the exponent is negative, and its digits. -/
  exponent : Option (Bool × List Char)
deriving DecidableEq, Repr

namespace Numeral

/-! ## Scanning -/

/-- Digits, at least one, and what follows them. -/
def scanDigits? (input : List Char) : Option (List Char × List Char) :=
  let digits := input.takeWhile Char.isDigit
  if digits.isEmpty then none else some (digits, input.dropWhile Char.isDigit)

/-- A fraction if there is a point, and what follows it. -/
def scanFraction? : List Char → Option (Option (List Char) × List Char)
  | '.' :: input =>
      match scanDigits? input with
      | some (digits, rest) => some (some digits, rest)
      | none => none
  | input => some (none, input)

def scanSign : List Char → Bool × List Char
  | '-' :: input => (true, input)
  | '+' :: input => (false, input)
  | input => (false, input)

/-- An exponent if there is the letter for one, and what follows it. -/
def scanExponent? (input : List Char) :
    Option (Option (Bool × List Char) × List Char) :=
  match input with
  | 'e' :: signed | 'E' :: signed =>
      let (negative, input) := scanSign signed
      match scanDigits? input with
      | some (digits, rest) => some (some (negative, digits), rest)
      | none => none
  | input => some (none, input)

def scanMinus : List Char → Bool × List Char
  | '-' :: input => (true, input)
  | input => (false, input)

/-- A numeral, and what follows it. Its first digit is a zero only where it is
the only one before the point. -/
def scan? (input : List Char) : Option (Numeral × List Char) := do
  let (negative, input) := scanMinus input
  let (whole, input) ← scanDigits? input
  if whole.head? = some '0' ∧ whole.length ≠ 1 then failure
  let (fraction, input) ← scanFraction? input
  let (exponent, input) ← scanExponent? input
  return (⟨negative, whole, fraction, exponent⟩, input)

def ofLiteral? (literal : String) : Option Numeral :=
  match scan? literal.toList with
  | some (numeral, []) => some numeral
  | _ => none

/-- Whether a character may be part of a numeral. None of them may follow one in
a document, so a numeral reaches as far as these characters do. -/
def isPart (c : Char) : Bool :=
  c.isDigit || c = '-' || c = '+' || c = '.' || c = 'e' || c = 'E'

/-! ## What it names -/

def digitValue (digit : Char) : Nat :=
  digit.toNat - '0'.toNat

def natural (digits : List Char) : Nat :=
  digits.foldl (fun n digit => 10 * n + digitValue digit) 0

def integer? (numeral : Numeral) : Option Int :=
  match numeral.fraction, numeral.exponent with
  | none, none =>
      let n := natural numeral.whole
      if numeral.negative then
        if n = 0 then none else some (-n)
      else some n
  | _, _ => none

/-- What the collected digits make stays below this number. -/
def collectLimit : Nat := UInt64.size

/-- Collects the digits before the point: the number they make, and the number
of places that were left out. -/
def collectWhole (collected : Nat) : List Char → Nat × Nat
  | [] => (collected, 0)
  | digit :: rest =>
      let more := 10 * collected + digitValue digit
      if more < collectLimit then collectWhole more rest
      else (collected, rest.length + 1)

/-- Collects the digits after the point: the number they make, and the number
of places that were taken. -/
def collectFraction (collected places : Nat) : List Char → Nat × Nat
  | [] => (collected, places)
  | digit :: rest =>
      let more := 10 * collected + digitValue digit
      if more < collectLimit then collectFraction more (places + 1) rest
      else (collected, places)

/-- The largest power of ten that a number is scaled by at once. -/
def greatestPower : Nat := 308

def powerOfTen (exponent : Nat) : Float :=
  Float.ofScientific 1 false exponent

/-- Divides a number by ten so many times, by at most `greatestPower` at once.
Once it is zero it stays zero. -/
def scaleDown (x : Float) (places : Nat) : Float :=
  if x == 0.0 then x
  else if places ≤ greatestPower then x / powerOfTen places
  else scaleDown (x / powerOfTen greatestPower) (places - greatestPower)
termination_by places
decreasing_by
  unfold greatestPower at *
  omega

/-- Multiplies a number by ten so many times, if the product is in range. -/
def scaleUp? (x : Float) (places : Nat) : Option Float :=
  if places ≤ greatestPower then
    let product := x * powerOfTen places
    if product.isInf then none else some product
  else if x == 0.0 then some x
  else none

/-- A number scaled by a power of ten, if it is in range. -/
def scale? (x : Float) : Int → Option Float
  | .ofNat places => scaleUp? x places
  | .negSucc places => some (scaleDown x (places + 1))

/-- The number an exponent adds. -/
def exponentValue : Option (Bool × List Char) → Int
  | none => 0
  | some (negative, digits) =>
      if negative then -(natural digits : Int) else natural digits

/-- The real a numeral names, if it is in range. -/
def real? (numeral : Numeral) : Option Float :=
  let (whole, leftOut) := collectWhole 0 numeral.whole
  let (collected, taken) := collectFraction whole 0 (numeral.fraction.getD [])
  let exponent : Int := leftOut - taken + exponentValue numeral.exponent
  match scale? collected.toUInt64.toFloat exponent with
  | some size => some (if numeral.negative then -size else size)
  | none => none

end Numeral

end Sexpr

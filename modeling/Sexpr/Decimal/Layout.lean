import Sexpr.Decimal.Shortest

/-!
# Decimals in writing

The digits of a number are found once, in `Decimal.shortest`; how they are laid
out is a matter of the text they appear in. A layout says which numbers are
written out in full and which with an exponent, and what a whole number looks
like. The three texts of this library differ in nothing else.
-/

namespace Sexpr

/-- How a decimal is written. -/
structure Layout where
  /-- The least and the greatest exponent of a leading digit for which a number
  is written out in full; without bounds every number is. -/
  inFull : Option (Int × Int)
  /-- What follows a whole number that is written out in full. -/
  wholeSuffix : String
  /-- The sign of an exponent that is not negative. -/
  plus : String
  /-- Which of two equally near decimals is written. -/
  tie : Decimal.Tie

namespace Layout

/-- The layout of the canonical text: everything in full, and a whole number
without a point. -/
def plain : Layout :=
  { inFull := none, wholeSuffix := "", plus := "", tie := .away }

/-- The layout of the tagged text: from `0.0001` to below `1e16` in full, and a
whole number with a zero after its point. -/
def tagged : Layout :=
  { inFull := some (-4, 15), wholeSuffix := ".0", plus := "", tie := .away }

/-- The layout of a document: from `0.00001` to below `1e+16` in full, and a
whole number with a zero after its point. -/
def document : Layout :=
  { inFull := some (-5, 15), wholeSuffix := ".0", plus := "+", tie := .toEven }

def zeros (count : Nat) : String :=
  String.ofList (List.replicate count '0')

/-- Digits written out in full, the point standing `point` places after the
first one. -/
def full (layout : Layout) (digits : List Char) (point : Int) : String :=
  if point ≤ 0 then
    "0." ++ zeros (-point).toNat ++ String.ofList digits
  else
    let whole := point.toNat
    if digits.length ≤ whole then
      String.ofList digits ++ zeros (whole - digits.length) ++ layout.wholeSuffix
    else
      String.ofList (digits.take whole) ++ "." ++ String.ofList (digits.drop whole)

/-- Digits written with the exponent of the first one. -/
def scientific (layout : Layout) (digits : List Char) (exponent : Int) : String :=
  let rest := digits.drop 1
  let mantissa :=
    String.ofList (digits.take 1) ++
      (if rest.isEmpty then "" else "." ++ String.ofList rest)
  let sign := if exponent < 0 then "-" else layout.plus
  mantissa ++ "e" ++ sign ++ toString exponent.natAbs

/-- A decimal in writing. Zero is written out in full in every layout. -/
def decimal (layout : Layout) (d : Decimal) : String :=
  let digits := Nat.toDigits 10 d.coefficient
  let point := d.exponent + digits.length
  let exponent := point - 1
  match layout.inFull with
  | none => layout.full digits point
  | some (least, most) =>
      if least ≤ exponent ∧ exponent ≤ most then layout.full digits point
      else layout.scientific digits exponent

def magnitude (layout : Layout) (significand : Nat) (exponent : Int) : String :=
  if significand = 0 then layout.decimal ⟨0, 0⟩
  else layout.decimal (Decimal.shortest layout.tie significand exponent)

def signed (layout : Layout) (negative : Bool) (significand : Nat) (exponent : Int) :
    String :=
  (if negative then "-" else "") ++ layout.magnitude significand exponent

def finite? (layout : Layout) (x : Float) : Option String :=
  match Binary64.ofFloat x with
  | .finite negative significand exponent =>
      some (layout.signed negative significand exponent)
  | _ => none

def write (layout : Layout) (x : Float) : String :=
  match Binary64.ofFloat x with
  | .nan => "NaN"
  | .infinite negative => if negative then "-inf" else "inf"
  | .finite negative significand exponent =>
      layout.signed negative significand exponent

end Layout

end Sexpr

import Sexpr.Numeric.Basic

/-!
# Ascents

Numbers ascend if each is less than the next, compared as binary64 numbers. An
ascent is watched one number at a time; it is enough to remember the last one.
Once broken it stays broken, though later numbers are still remembered.
-/

namespace Sexpr

/-- Whether the numbers so far ascend, and the last of them. -/
structure Ascent where
  holds : Bool
  last : Option Float
deriving DecidableEq, Inhabited

namespace Ascent

/-- No numbers yet, which ascend. -/
def start : Ascent := ⟨true, none⟩

/-- Goes on to one more number. -/
def next (ascent : Ascent) (value : Value) : Except Error Unit × Ascent :=
  match value.number with
  | .error error => (.error error, ascent)
  | .ok this =>
      let above : Bool :=
        match ascent.last with
        | none => true
        | some last => decide (last < this)
      (.ok (), ⟨ascent.holds && above, some this⟩)

end Ascent

end Sexpr

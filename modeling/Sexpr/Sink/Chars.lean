import Sexpr.Error

/-!
# A sink for characters

Text is written piece by piece, and a sink may have room for so many characters
only. What still fits of a piece is kept, and the piece then fails; so a sink
that ran full holds the beginning of what was meant for it. Nothing that a
sink took in is ever taken back.
-/

namespace Sexpr

/-- A text under way. Without a bound in `room` there is always room. -/
structure CharSink where
  text : String
  room : Option Nat
deriving DecidableEq, Inhabited

/-- Writing into a sink, which may fail on the way. The sink is kept either
way. -/
abbrev Writing := EStateM Error CharSink

namespace CharSink

/-- A sink that never runs full. -/
def unbounded : CharSink := ⟨"", none⟩

/-- A sink that takes so many characters. -/
def bounded (room : Nat) : CharSink := ⟨"", some room⟩

def full : Error := .output "formatter error"

/-- Writes one piece, as far as there is room for it. -/
def write (piece : String) : Writing Unit := fun sink =>
  match sink with
  | ⟨text, none⟩ => .ok () ⟨text ++ piece, none⟩
  | ⟨text, some room⟩ =>
      if piece.length ≤ room then
        .ok () ⟨text ++ piece, some (room - piece.length)⟩
      else
        .error full ⟨text ++ String.ofList (piece.toList.take room), some 0⟩

end CharSink

end Sexpr

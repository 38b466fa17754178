import Sexpr.Error

/-!
# A sink for bytes

Printed lines leave the evaluator as UTF-8 bytes. A sink may have room for so
many bytes only, and then a line is cut where the room ends, in the middle of a
character if need be. A write that was cut has failed, though its beginning has
been taken in.

A bound on the room stands for whatever makes a writer fail. An evaluation ends
with the first write that fails, so it cannot notice more of its writer than
which write that was and how much was taken in until then; and a sink that has
room for just so many bytes fails in the same write and holds the same bytes.
What differs is the writer's own message, in whose place `full` is the one here.
-/

namespace Sexpr

/-- The bytes taken in so far. Without a bound in `room` there is always room. -/
structure ByteSink where
  bytes : ByteArray
  room : Option Nat
deriving Inhabited

namespace ByteSink

/-- A sink that never fails. -/
def unbounded : ByteSink := ⟨.empty, none⟩

/-- A sink that takes so many bytes. -/
def bounded (room : Nat) : ByteSink := ⟨.empty, some room⟩

def full : Error := .output "sink full"

/-- Writes a text, as far as there is room for it, and says whether there was
room for all of it. -/
def write (sink : ByteSink) (text : String) : Except Error Unit × ByteSink :=
  match sink with
  | ⟨bytes, none⟩ => (.ok (), ⟨bytes ++ text.toUTF8, none⟩)
  | ⟨bytes, some room⟩ =>
      let piece := text.toUTF8
      if piece.size ≤ room then
        (.ok (), ⟨bytes ++ piece, some (room - piece.size)⟩)
      else
        (.error full, ⟨bytes ++ piece.extract 0 room, some 0⟩)

/-- Writes a text and ends the line. -/
def writeLine (sink : ByteSink) (text : String) : Except Error Unit × ByteSink :=
  sink.write (text.push '\n')

/-- Takes out what was taken in. The room that is left stays the same. -/
def drain (sink : ByteSink) : ByteArray × ByteSink :=
  (sink.bytes, ⟨.empty, sink.room⟩)

end ByteSink

end Sexpr

import Sexpr.Sink.Bytes

/-!
# What a line does to a sink

A line is taken in whole or the sink is full, and a sink without a bound is
never full.
-/

namespace Sexpr

namespace ByteSink

/-- There is one reason for a line not to be taken in. -/
theorem error_eq_full {sink after : ByteSink} {text : String} {error : Error}
    (h : sink.writeLine text = (.error error, after)) : error = full := by
  obtain ⟨bytes, room⟩ := sink
  cases room with
  | none => cases h
  | some room =>
      simp only [writeLine, write] at h
      split at h <;> cases h
      rfl

/-- A line that was taken in stands behind what was there before. -/
theorem bytes_of_writeLine {sink after : ByteSink} {text : String}
    (h : sink.writeLine text = (.ok (), after)) :
    after.bytes = sink.bytes ++ (text.push '\n').toUTF8 := by
  obtain ⟨bytes, room⟩ := sink
  cases room with
  | none =>
      cases h
      rfl
  | some room =>
      simp only [writeLine, write] at h
      split at h <;> cases h
      rfl

theorem room_of_writeLine {sink after : ByteSink} {text : String} {answer : Except Error Unit}
    (h : sink.writeLine text = (answer, after)) (hroom : sink.room = none) :
    after.room = none := by
  obtain ⟨bytes, room⟩ := sink
  obtain rfl : room = none := hroom
  cases h
  rfl

theorem writeLine_of_unbounded {sink : ByteSink} (h : sink.room = none) (text : String) :
    sink.writeLine text = (.ok (), ⟨sink.bytes ++ (text.push '\n').toUTF8, none⟩) := by
  obtain ⟨bytes, room⟩ := sink
  obtain rfl : room = none := h
  rfl

end ByteSink

end Sexpr

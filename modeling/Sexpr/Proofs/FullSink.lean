import Sexpr.Proofs.Output
import Sexpr.Proofs.Returns

/-!
# A sink that runs full

Let an evaluation run twice, once with a sink that takes everything and once
with a sink that has room for so many bytes. As long as what has been printed
fits, the two runs are in the same state, the sinks aside. The first line that
does not fit ends the second run: its sink holds as much as there was room for,
and the error goes up through every operator that is under way, none of which
prints, catches it, or puts another in its place. The first run goes on, and can
only add to what it has printed. So in the end the second sink holds the
beginning of what the first one holds.

The two runs are tied together for every amount of room, since the rest of a
run begins with whatever room its beginning has left. Once the second run has
failed, the rest of the first one is compared with a run that has no room at
all; that is how it is known to take nothing back.
-/

namespace Sexpr

/-! ## The beginning of some bytes -/

theorem extract_append_of_le {first second : ByteArray} {count : Nat} (h : first.size ≤ count) :
    (first ++ second).extract 0 count = first ++ second.extract 0 (count - first.size) := by
  rw [ByteArray.extract_append, Nat.zero_sub, ← Nat.max_eq_left h,
    ByteArray.extract_zero_max_size]

theorem extract_append_of_ge {first second : ByteArray} {count : Nat} (h : count ≤ first.size) :
    (first ++ second).extract 0 count = first.extract 0 count := by
  rw [ByteArray.extract_append, Nat.zero_sub, Nat.sub_eq_zero_of_le h, ByteArray.extract_same,
    ByteArray.append_empty]

/-! ## Two runs -/

/-- How a run with some room for what it prints turns out, beside one without a
bound. Both sinks begin with the same bytes. -/
inductive Run.Curtailed {α : Type} (P : α → Prop) (bytes : ByteArray) (room : Nat) :
    Run Machine (Except Error α) → Run Machine (Except Error α) → Prop where
  /-- All that is printed fits. -/
  | whole {answer : Except Error α} {environment : Environment} {printed : ByteArray}
      (hanswer : ∀ result, answer = .ok result → P result) (hroom : printed.size ≤ room) :
      Run.Curtailed P bytes room
        (.done answer ⟨environment, ⟨bytes ++ printed, none⟩⟩)
        (.done answer ⟨environment, ⟨bytes ++ printed, some (room - printed.size)⟩⟩)
  /-- The sink ran full on the way. -/
  | cut {answer : Except Error α} {environment left : Environment} {printed : ByteArray}
      (hanswer : ∀ result, answer = .ok result → P result) (hroom : room < printed.size) :
      Run.Curtailed P bytes room
        (.done answer ⟨environment, ⟨bytes ++ printed, none⟩⟩)
        (.done (.error ByteSink.full) ⟨left, ⟨bytes ++ printed.extract 0 room, some 0⟩⟩)
  | stuck {curtailed : Run Machine (Except Error α)} :
      Run.Curtailed P bytes room .stuck curtailed
  | outOfFuel {curtailed : Run Machine (Except Error α)} :
      Run.Curtailed P bytes room .outOfFuel curtailed

namespace Run.Curtailed

variable {α β : Type} {P : α → Prop} {Q : β → Prop} {bytes printed : ByteArray} {room : Nat}
  {environment : Environment}

theorem silent {answer : Except Error α} (hanswer : ∀ result, answer = .ok result → P result) :
    Run.Curtailed P bytes room (.done answer ⟨environment, ⟨bytes, none⟩⟩)
      (.done answer ⟨environment, ⟨bytes, some room⟩⟩) := by
  have h : Run.Curtailed P bytes room
      (.done answer ⟨environment, ⟨bytes ++ ByteArray.empty, none⟩⟩)
      (.done answer ⟨environment, ⟨bytes ++ ByteArray.empty, some (room - 0)⟩⟩) :=
    .whole hanswer (Nat.zero_le room)
  rwa [ByteArray.append_empty] at h

/-- What is printed first takes its part of the room. -/
theorem behind {run curtailed : Run Machine (Except Error α)} (hroom : printed.size ≤ room)
    (h : Run.Curtailed P (bytes ++ printed) (room - printed.size) run curtailed) :
    Run.Curtailed P bytes room run curtailed := by
  cases h with
  | @whole answer environment more hanswer hmore =>
      rw [ByteArray.append_assoc, Nat.sub_sub, ← ByteArray.size_append]
      exact .whole hanswer (by rw [ByteArray.size_append]; omega)
  | @cut answer environment left more hanswer hmore =>
      rw [ByteArray.append_assoc, ByteArray.append_assoc, ← extract_append_of_le hroom]
      exact .cut hanswer (by rw [ByteArray.size_append]; omega)
  | stuck => exact .stuck
  | outOfFuel => exact .outOfFuel

/-- What is printed after the sink ran full does not show. -/
theorem behind_cut {run curtailed : Run Machine (Except Error α)} {left : Environment}
    (hroom : room < printed.size) (h : Run.Curtailed P (bytes ++ printed) 0 run curtailed) :
    Run.Curtailed P bytes room run
      (.done (.error ByteSink.full) ⟨left, ⟨bytes ++ printed.extract 0 room, some 0⟩⟩) := by
  cases h with
  | @whole answer environment more hanswer _ | @cut answer environment _ more hanswer _ =>
      have hbeginning : (printed ++ more).extract 0 room = printed.extract 0 room :=
        extract_append_of_ge (Nat.le_of_lt hroom)
      rw [ByteArray.append_assoc, ← hbeginning]
      exact .cut hanswer (by rw [ByteArray.size_append]; omega)
  | stuck => exact .stuck
  | outOfFuel => exact .outOfFuel

theorem bind {first second : Action α} {thenFirst thenSecond : α → Action β}
    (h : Run.Curtailed P bytes room (first ⟨environment, ⟨bytes, none⟩⟩)
      (second ⟨environment, ⟨bytes, some room⟩⟩))
    (hthen : ∀ answer, P answer → ∀ environment bytes room,
      Run.Curtailed Q bytes room (thenFirst answer ⟨environment, ⟨bytes, none⟩⟩)
        (thenSecond answer ⟨environment, ⟨bytes, some room⟩⟩)) :
    Run.Curtailed Q bytes room ((first >>= thenFirst) ⟨environment, ⟨bytes, none⟩⟩)
      ((second >>= thenSecond) ⟨environment, ⟨bytes, some room⟩⟩) := by
  simp only [Bind.bind, Action.bind]
  generalize first ⟨environment, ⟨bytes, none⟩⟩ = run,
    second ⟨environment, ⟨bytes, some room⟩⟩ = curtailed at h ⊢
  cases h with
  | @whole answer environment printed hanswer hroom =>
      cases answer with
      | ok answer => exact (hthen answer (hanswer answer rfl) _ _ _).behind hroom
      | error error =>
          refine .whole (fun _ hok => ?_) hroom
          cases hok
  | @cut answer environment left printed hanswer hroom =>
      cases answer with
      | ok answer =>
          -- The second run is over. The first goes on, and is held against one without room.
          exact (hthen answer (hanswer answer rfl) _ _ 0).behind_cut hroom
      | error error =>
          refine .cut (fun _ hok => ?_) hroom
          cases hok
  | stuck => exact .stuck
  | outOfFuel => exact .outOfFuel

end Run.Curtailed

/-- The correspondence of a run without a bound and one with some room. -/
def curtailment : Correspondence fun _ => True where
  Holds P left right := ∀ environment bytes room,
    Run.Curtailed P bytes room (left ⟨environment, ⟨bytes, none⟩⟩)
      (right ⟨environment, ⟨bytes, some room⟩⟩)
  pure h _ _ _ := .silent fun _ hok => Except.ok.inj hok ▸ h
  bind h hthen _ _ _ := .bind (h _ _ _) hthen
  fail _ _ _ _ := .silent fun _ hok => nomatch hok
  lookup _ _ _ _ := .silent fun _ _ => trivial
  define {name value} _ _ hfree _ environment bytes room := by
    simp only [Action.define, Environment.define_of_free hfree environment value]
    exact .silent fun _ _ => trivial
  emitLine {_ text} _ _ _ environment bytes room := by
    simp only [Action.emitLine, ByteSink.writeLine, ByteSink.write]
    split
    · next hroom => exact .whole (fun _ _ => trivial) hroom
    · next hroom => exact .cut (fun _ _ => trivial) (Nat.lt_of_not_le hroom)

theorem eval_curtailed (fuel : Nat) (expression : Value) (environment : Environment)
    (bytes : ByteArray) (room : Nat) :
    Run.Curtailed (fun _ => True) bytes room
      (eval fuel expression ⟨environment, ⟨bytes, none⟩⟩)
      (eval fuel expression ⟨environment, ⟨bytes, some room⟩⟩) :=
  eval_holds curtailment Closed.everything (fun _ _ _ => .outOfFuel) fuel expression trivial
    environment bytes room

/-- An evaluation that returns with a sink that takes everything returns with
one that has some room. If what it prints fits, nothing else is different; and
if not, it fails and the sink holds the beginning of it. -/
theorem returns_bounded {expression : Value} {environment : Environment} {after : Machine}
    {answer : Except Error Value} (room : Nat)
    (h : Returns expression ⟨environment, .unbounded⟩ answer after) :
    (after.sink.bytes.size ≤ room →
      Returns expression ⟨environment, .bounded room⟩ answer
        ⟨after.environment, ⟨after.sink.bytes, some (room - after.sink.bytes.size)⟩⟩) ∧
    (room < after.sink.bytes.size → ∃ left,
      Returns expression ⟨environment, .bounded room⟩ (.error (.output "sink full"))
        ⟨left, ⟨after.sink.bytes.extract 0 room, some 0⟩⟩) := by
  obtain ⟨fuel, h⟩ := h
  have hrun := eval_curtailed fuel expression environment ByteArray.empty room
  rw [show eval fuel expression ⟨environment, ⟨ByteArray.empty, none⟩⟩ = _ from h] at hrun
  generalize hright : eval fuel expression ⟨environment, ⟨ByteArray.empty, some room⟩⟩ = run
    at hrun
  cases hrun with
  | @whole _ environment printed _ hroom =>
      rw [ByteArray.empty_append] at hright ⊢
      exact ⟨fun _ => ⟨fuel, hright⟩, fun hlt => absurd hroom (Nat.not_le_of_lt hlt)⟩
  | @cut _ environment left printed _ hroom =>
      rw [ByteArray.empty_append] at hright ⊢
      exact ⟨fun hle => absurd hle (Nat.not_le_of_lt hroom), fun _ => ⟨left, fuel, hright⟩⟩

/-- `(if (print 12) (print 345) 6)` prints seven bytes in two lines. With room for
five of them it fails in the middle of the second one. -/
theorem returns_bounded_if :
    ∃ left, Returns
      (.list [.symbol "if", .list [.symbol "print", .int 12], .list [.symbol "print", .int 345],
        .int 6])
      ⟨.empty, .bounded 5⟩ (.error (.output "sink full")) ⟨left, ⟨"12\n34".toUTF8, some 0⟩⟩ := by
  have hreturns : Returns
      (.list [.symbol "if", .list [.symbol "print", .int 12], .list [.symbol "print", .int 345],
        .int 6])
      ⟨.empty, .unbounded⟩ (.ok .empty)
      ⟨.empty, ((ByteSink.unbounded.writeLine "12").2.writeLine "345").2⟩ :=
    ⟨3, rfl⟩
  exact (returns_bounded 5 hreturns).2 (by decide)

end Sexpr

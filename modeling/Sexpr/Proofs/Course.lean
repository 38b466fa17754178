import Mathlib.Logic.Relation
import Sexpr.Proofs.Output
import Sexpr.Proofs.Returns

/-!
# The course of a run

An evaluation is nested, but what it does to the state it runs in is not: it
binds a name or prints a line, and each of these is done with before the next
one begins. So behind every evaluation that returns there is a course, a chain
of effects that leads from the state it began in to the state it has reached.

A run that fails does so once. The failure is raised in the state at the end of
the course and nothing is done after it, however many operators it has to pass
on its way up, because each of them passes it on as it is. The one failure with
an effect of its own is a line that the sink takes in no more than in part.

What is claimed of the state a run leaves, or of an error and that state, can
be read off the course by an induction that does not mention evaluation.
-/

namespace Sexpr

/-- One thing that is done to a state: a name is bound, or a line is printed
that is the canonical text of a value. -/
inductive Effect (before : Machine) : Machine → Prop where
  | bound {name : String} {value : Value} {environment : Environment}
      (h : before.environment.define name value = (.ok (), environment)) :
      Effect before { before with environment }
  | printed {value : Value} {text : String} {sink : ByteSink}
      (hrender : value.render = .ok text)
      (h : before.sink.writeLine text = (.ok (), sink)) :
      Effect before { before with sink }

/-- Effects one after the other, or none. -/
abbrev Course : Machine → Machine → Prop :=
  Relation.ReflTransGen Effect

theorem Course.keeps {P : Machine → Prop}
    (hkeeps : ∀ {before after}, Effect before after → P before → P after)
    {first last : Machine} (h : Course first last) (hfirst : P first) : P last := by
  induction h with
  | refl => exact hfirst
  | tail _ heffect ih => exact hkeeps heffect ih

theorem Effect.room {before after : Machine} (h : Effect before after)
    (hroom : before.sink.room = none) : after.sink.room = none := by
  cases h with
  | bound => exact hroom
  | printed _ hwrite => exact ByteSink.room_of_writeLine hwrite hroom

/-- How a run fails in the state that it has reached, and what state it then
leaves. -/
inductive Failure (reached : Machine) : Error → Machine → Prop where
  | grounded {error : Error} (h : Grounded (fun _ => True) error) :
      Failure reached error reached
  | unbound {name : String} (h : reached.environment.contains name = false) :
      Failure reached (.unboundSymbol name) reached
  | cut {value : Value} {text : String} {error : Error} {sink : ByteSink}
      (hrender : value.render = .ok text)
      (h : reached.sink.writeLine text = (.error error, sink)) :
      Failure reached error { reached with sink }

theorem Failure.environment_eq {reached after : Machine} {error : Error}
    (h : Failure reached error after) : after.environment = reached.environment := by
  cases h with
  | grounded | unbound | cut => rfl

theorem Failure.eq_of_unbounded {reached after : Machine} {error : Error}
    (h : Failure reached error after) (hroom : reached.sink.room = none) : after = reached := by
  cases h with
  | grounded | unbound => rfl
  | cut _ hwrite =>
      rw [ByteSink.writeLine_of_unbounded hroom] at hwrite
      cases hwrite

/-! ## Every run takes its course -/

/-- A run that has ended took a course, and if it has failed it did so there. -/
def Run.Takes {α : Type} (P : α → Prop) (start : Machine) : Run Machine (Except Error α) → Prop
  | .done (.ok answer) after => P answer ∧ Course start after
  | .done (.error error) after => ∃ reached, Course start reached ∧ Failure reached error after
  | .stuck => False
  | .outOfFuel => True

/-- A course that leads to where a run begins is the beginning of its course. -/
theorem Run.Takes.behind {α : Type} {P : α → Prop} {start reached : Machine}
    (h : Course start reached) {run : Run Machine (Except Error α)}
    (hrun : run.Takes P reached) : run.Takes P start := by
  cases run with
  | done answer after =>
      cases answer with
      | ok answer => exact ⟨hrun.1, h.trans hrun.2⟩
      | error error =>
          obtain ⟨last, hcourse, hfailure⟩ := hrun
          exact ⟨last, h.trans hcourse, hfailure⟩
  | stuck => exact hrun
  | outOfFuel => trivial

/-- The correspondence that asks for a course on the left. -/
def courses : Correspondence fun _ => True where
  Holds P left _ := ∀ machine, (left machine).Takes P machine
  pure h _ := ⟨h, .refl⟩
  bind {_ _ _ _ left _ _ _} h hthen machine := by
    have hleft := h machine
    simp only [Bind.bind, Action.bind]
    cases hrun : left machine with
    | done answer after =>
        rw [hrun] at hleft
        cases answer with
        | ok answer => exact (hthen answer hleft.1 after).behind hleft.2
        -- The second part does not run, so the failure of the first stays the last thing.
        | error error => exact hleft
    | stuck =>
        rw [hrun] at hleft
        exact hleft
    | outOfFuel => trivial
  fail h machine := ⟨machine, .refl, .grounded h⟩
  lookup {name} _ machine := by
    simp only [Action.lookup]
    cases hlookup : machine.environment.lookup name with
    | ok value => exact ⟨trivial, .refl⟩
    | error error =>
        obtain ⟨rfl, hname⟩ := Environment.lookup_eq_error_iff.1 hlookup
        exact ⟨machine, .refl, .unbound hname⟩
  define {name value} _ _ hfree _ machine := by
    have hok := Environment.define_of_free hfree machine.environment value
    simp only [Action.define, hok]
    exact ⟨trivial, .single (.bound hok)⟩
  emitLine {_ text} _ _ hrender machine := by
    simp only [Action.emitLine]
    cases hwrite : machine.sink.writeLine text with
    | mk answer sink =>
        cases answer with
        | ok => exact ⟨trivial, .single (.printed hrender hwrite)⟩
        | error error => exact ⟨machine, .refl, .cut hrender hwrite⟩

theorem eval_takes (fuel : Nat) (expression : Value) (machine : Machine) :
    (eval fuel expression machine).Takes (fun _ => True) machine :=
  eval_holds courses Closed.everything (fun _ => trivial) fuel expression trivial machine

/-! ## What an evaluation leaves

An evaluation that succeeds leaves the state its course leads to. One that fails
leaves the bindings its course has made, and the sink as well if it is not the
sink that has failed. -/

namespace Returns

variable {expression : Value} {machine after : Machine}

theorem course {value : Value} (h : Returns expression machine (.ok value) after) :
    Course machine after := by
  obtain ⟨fuel, h⟩ := h
  have htakes := eval_takes fuel expression machine
  rw [h] at htakes
  exact htakes.2

theorem failure {error : Error} (h : Returns expression machine (.error error) after) :
    ∃ reached, Course machine reached ∧ Failure reached error after := by
  obtain ⟨fuel, h⟩ := h
  have htakes := eval_takes fuel expression machine
  rw [h] at htakes
  exact htakes

theorem course_environment {answer : Except Error Value}
    (h : Returns expression machine answer after) :
    ∃ reached, Course machine reached ∧ after.environment = reached.environment := by
  cases answer with
  | ok value => exact ⟨after, h.course, rfl⟩
  | error error =>
      obtain ⟨reached, hcourse, hfailure⟩ := h.failure
      exact ⟨reached, hcourse, hfailure.environment_eq⟩

theorem course_of_unbounded {answer : Except Error Value}
    (h : Returns expression machine answer after) (hroom : machine.sink.room = none) :
    Course machine after := by
  cases answer with
  | ok value => exact h.course
  | error error =>
      obtain ⟨reached, hcourse, hfailure⟩ := h.failure
      rw [hfailure.eq_of_unbounded (hcourse.keeps Effect.room hroom)]
      exact hcourse

theorem room_eq_none {answer : Except Error Value} (h : Returns expression machine answer after)
    (hroom : machine.sink.room = none) : after.sink.room = none :=
  (h.course_of_unbounded hroom).keeps Effect.room hroom

end Returns

end Sexpr

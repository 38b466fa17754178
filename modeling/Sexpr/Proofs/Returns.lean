import Sexpr.Proofs.Bindings
import Sexpr.Proofs.Fundamental

/-!
# Evaluations that return

Fuel is how `eval` is made total, and nobody who evaluates an expression knows
of any. So a property of evaluation is stated of those that return: there is a
fuel under which the evaluation ends, with this answer and in this state. It
does not matter which. A run that ended under some fuel ends in the same way
under more, so an expression returns at most once (`returns_unique`).

Most of what is to be said of one run has the same form: something is true of
every state in which the run has arrived, every such state follows in some way
from the one before, and an error that ends the run has its reason in the state
it leaves. A `Discipline` is these three together with why looking up, binding
and printing respect them. The operators need not be asked again.
-/

namespace Sexpr

/-- The evaluation of an expression ends, with an answer and in a state. -/
def Returns (expression : Value) (machine : Machine) (answer : Except Error Value)
    (after : Machine) : Prop :=
  ∃ fuel, eval fuel expression machine = .done answer after

/-! ## More fuel

Two runs of one action under different fuel go side by side until the first one
has to stop. That is a correspondence in which any value may turn up. -/

/-- The left run does what the right one does, as far as its fuel lasts. -/
def truncation : Correspondence fun _ => True where
  Holds P left right := ∀ machine, left machine = .outOfFuel ∨
    left machine = right machine ∧
      ∀ answer after, left machine = .done (.ok answer) after → P answer
  pure h machine := by
    refine .inr ⟨rfl, fun answer after hdone => ?_⟩
    cases hdone
    exact h
  bind {_ _ _ _ left right thenLeft thenRight} h hthen machine := by
    rcases h machine with hstop | ⟨hsame, hanswer⟩
    · exact .inl (by simp only [Bind.bind, Action.bind, hstop])
    · simp only [Bind.bind, Action.bind, ← hsame]
      cases hleft : left machine with
      | done answer after =>
          cases answer with
          | ok answer => exact hthen answer (hanswer answer after hleft) after
          | error error => exact .inr ⟨rfl, fun _ _ hdone => nomatch hdone⟩
      | stuck => exact .inr ⟨rfl, fun _ _ hdone => nomatch hdone⟩
      | outOfFuel => exact .inl rfl
  fail _ _ := .inr ⟨rfl, fun _ _ hdone => nomatch hdone⟩
  lookup _ _ := .inr ⟨rfl, fun _ _ _ => trivial⟩
  define _ _ _ _ _ := .inr ⟨rfl, fun _ _ _ => trivial⟩
  emitLine _ _ _ _ := .inr ⟨rfl, fun _ _ _ => trivial⟩

theorem eval_truncation {fuel more : Nat} (h : fuel ≤ more) (expression : Value) :
    truncation.Holds (fun _ => True) (eval fuel expression) (eval more expression) := by
  induction fuel generalizing more expression with
  | zero => exact fun _ => .inl rfl
  | succ fuel ih =>
      obtain ⟨more, rfl⟩ : ∃ rest, more = rest + 1 := ⟨more - 1, by omega⟩
      exact step_holds truncation Closed.everything
        (fun value _ => ih (Nat.le_of_succ_le_succ h) value) trivial

/-- A run that ended ends in the same way under more fuel. -/
theorem eval_mono {fuel more : Nat} (hle : fuel ≤ more) {expression : Value}
    {machine after : Machine} {answer : Except Error Value}
    (h : eval fuel expression machine = .done answer after) :
    eval more expression machine = .done answer after := by
  rcases eval_truncation hle expression machine with hstop | ⟨hsame, -⟩
  · rw [hstop] at h
    cases h
  · rw [← hsame, h]

theorem returns_unique {expression : Value} {machine : Machine}
    {first second : Except Error Value} {after later : Machine}
    (h : Returns expression machine first after) (k : Returns expression machine second later) :
    first = second ∧ after = later := by
  obtain ⟨fuel, h⟩ := h
  obtain ⟨more, k⟩ := k
  have hmax := eval_mono (Nat.le_max_left fuel more) h
  rw [eval_mono (Nat.le_max_right fuel more) k] at hmax
  cases hmax
  exact ⟨rfl, rfl⟩

/-- Expressions evaluate one after the other, each in the state that the one
before it has left, and each to a value. -/
inductive ReturnEach : List Value → Machine → List Value → Machine → Prop where
  | nil {machine : Machine} : ReturnEach [] machine [] machine
  | cons {expression value : Value} {expressions values : List Value}
      {before middle after : Machine} (first : Returns expression before (.ok value) middle)
      (rest : ReturnEach expressions middle values after) :
      ReturnEach (expression :: expressions) before (value :: values) after

/-! ## One run -/

/-- What is claimed of a run that has come to an end or has stopped for want of
fuel. It has not stopped in any other way. -/
def Run.Keeps {σ α : Type} (P : α → Prop) (Blame : Error → σ → Prop) (Arrived : σ → Prop) :
    Run σ (Except Error α) → Prop
  | .done (.ok answer) after => P answer ∧ Arrived after
  | .done (.error error) after => Blame error after ∧ Arrived after
  | .stuck => False
  | .outOfFuel => True

theorem Run.Keeps.mono {σ α : Type} {P : α → Prop} {Blame : Error → σ → Prop}
    {Arrived Reached : σ → Prop} (h : ∀ machine, Arrived machine → Reached machine)
    {run : Run σ (Except Error α)} (hrun : run.Keeps P Blame Arrived) :
    run.Keeps P Blame Reached := by
  cases run with
  | done answer after =>
      cases answer with
      | ok answer => exact ⟨hrun.1, h after hrun.2⟩
      | error error => exact ⟨hrun.1, h after hrun.2⟩
  | stuck => exact hrun
  | outOfFuel => trivial

/-- What is true of every state of a run, of each state and those after it, and
of an error and the state it leaves. -/
structure Discipline (Good : Value → Prop) where
  Allowed : Machine → Prop
  Follows : Machine → Machine → Prop
  Blame : Error → Machine → Prop
  refl : ∀ machine, Follows machine machine
  trans : ∀ {first second third}, Follows first second → Follows second third →
    Follows first third
  grounded : ∀ {error machine}, Grounded Good error → Blame error machine
  lookup : ∀ {name machine}, Good (.symbol name) → Allowed machine →
    match machine.environment.lookup name with
    | .ok value => Good value
    | .error error => Blame error machine
  define : ∀ {name value environment machine}, Good (.symbol "define") →
    Good (.symbol name) → Good value → Allowed machine →
    machine.environment.define name value = (.ok (), environment) →
    Allowed { machine with environment } ∧ Follows machine { machine with environment }
  emitLine : ∀ {text machine answer sink}, Good (.symbol "print") → Allowed machine →
    machine.sink.writeLine text = (answer, sink) →
    Allowed { machine with sink } ∧ Follows machine { machine with sink } ∧
      ∀ error, answer = .error error → Blame error { machine with sink }

namespace Discipline

variable {Good : Value → Prop} (discipline : Discipline Good)

/-- The states a run may have arrived in. -/
def Arrived (before after : Machine) : Prop :=
  discipline.Allowed after ∧ discipline.Follows before after

/-- The correspondence that asks for a discipline on the left. -/
def tie : Correspondence Good where
  Holds P left _ := ∀ machine, discipline.Allowed machine →
    (left machine).Keeps P discipline.Blame (discipline.Arrived machine)
  pure h machine hallowed := ⟨h, hallowed, discipline.refl machine⟩
  bind {_ _ _ _ left _ _ _} h hthen machine hallowed := by
    have hleft := h machine hallowed
    simp only [Bind.bind, Action.bind]
    cases hrun : left machine with
    | done answer after =>
        rw [hrun] at hleft
        cases answer with
        | ok answer =>
            refine (hthen answer hleft.1 after hleft.2.1).mono fun later hlater => ?_
            exact ⟨hlater.1, discipline.trans hleft.2.2 hlater.2⟩
        | error error => exact hleft
    | stuck =>
        rw [hrun] at hleft
        exact hleft
    | outOfFuel => trivial
  fail h machine hallowed := ⟨discipline.grounded h, hallowed, discipline.refl machine⟩
  lookup {name} h machine hallowed := by
    have hlookup := discipline.lookup h hallowed
    simp only [Action.lookup]
    split at hlookup
    · next value hvalue =>
        rw [hvalue]
        exact ⟨hlookup, hallowed, discipline.refl machine⟩
    · next error herror =>
        rw [herror]
        exact ⟨hlookup, hallowed, discipline.refl machine⟩
  define {name value} hdefine hname hfree hvalue machine hallowed := by
    have hok := Environment.define_of_free hfree machine.environment value
    simp only [Action.define, hok]
    exact ⟨trivial, discipline.define hdefine hname hvalue hallowed hok⟩
  emitLine {_ text} hprint _ _ machine hallowed := by
    simp only [Action.emitLine]
    cases hwrite : machine.sink.writeLine text with
    | mk answer sink =>
        have hemit := discipline.emitLine hprint hallowed hwrite
        cases answer with
        | ok => exact ⟨trivial, hemit.1, hemit.2.1⟩
        | error error => exact ⟨hemit.2.2 error rfl, hemit.1, hemit.2.1⟩

/-- An evaluation that returns has kept to a discipline. -/
theorem of_returns (hclosed : Closed Good) {expression : Value} {machine after : Machine}
    {answer : Except Error Value} (hgood : Good expression)
    (hallowed : discipline.Allowed machine) (h : Returns expression machine answer after) :
    (∀ value, answer = .ok value → Good value) ∧
    (∀ error, answer = .error error → discipline.Blame error after) ∧
    discipline.Arrived machine after := by
  obtain ⟨fuel, h⟩ := h
  have hrun := eval_holds discipline.tie hclosed (fun _ _ => trivial) fuel expression hgood
    machine hallowed
  rw [h] at hrun
  cases answer with
  | ok value =>
      refine ⟨fun _ heq => ?_, fun _ heq => (nomatch heq), hrun.2⟩
      cases heq
      exact hrun.1
  | error error =>
      refine ⟨fun _ heq => (nomatch heq), fun _ heq => ?_, hrun.2⟩
      cases heq
      exact hrun.1

end Discipline

end Sexpr

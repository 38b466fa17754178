import Sexpr.Numeric.Ascent
import Sexpr.Numeric.RunningTotal

/-!
# Feeding numbers to a state

A total and an ascent both work through values one at a time. Each takes a number and
nothing else, so which values are taken does not depend on what is done with them, nor
on the state; and a step that fails leaves the state as it was (`eq_of_accept_error`,
`eq_of_next_error`). What comes of a whole list is told by two more things that a step
does: it keeps the kind of a total unless it takes a real, and it keeps a broken ascent
broken.
-/

namespace Sexpr

namespace Value

/-- Whether a value is one that arithmetic takes. -/
def isNumber : Value → Bool
  | int _ | real _ => true
  | _ => false

theorem isNumber_iff {value : Value} : value.isNumber = true ↔ ∃ x, value.number = .ok x := by
  cases value <;> simp [isNumber, number]

theorem number_of_not_number {value : Value} (h : value.isNumber = false) :
    value.number = .error (.notNumeric value.kind) := by
  cases value with
  | int | real => cases h
  | symbol | pair | empty => rfl

end Value

section

variable {σ : Type} {step : σ → Value → Except Error Unit × σ} {state : σ} {value : Value}

theorem feedLast_cons {answer : Except Error Unit} {next : σ}
    (h : step state value = (answer, next)) (rest : List Value) :
    feedLast step state (value :: rest) = feedLast step next rest := by
  rw [feedLast, List.foldl_cons, h]
  rfl

theorem feedLast_append (front back : List Value) :
    feedLast step state (front ++ back) = feedLast step (feedLast step state front) back :=
  List.foldl_append

end

namespace RunningTotal

variable {combine : Float → Float → Float} {running next : RunningTotal} {value : Value}

theorem accept_of_number {x : Float} (h : value.number = .ok x)
    (combine : Float → Float → Float) (running : RunningTotal) :
    ∃ isInt, running.accept combine value = (.ok (), ⟨isInt, combine running.total x⟩) := by
  cases value with
  | int n =>
      cases h
      exact ⟨_, rfl⟩
  | real y =>
      cases h
      exact ⟨_, rfl⟩
  | symbol | pair | empty => cases h

theorem exists_accept (h : value.isNumber = true) (combine : Float → Float → Float)
    (running : RunningTotal) : ∃ next, running.accept combine value = (.ok (), next) := by
  obtain ⟨x, hx⟩ := Value.isNumber_iff.1 h
  obtain ⟨isInt, haccept⟩ := accept_of_number hx combine running
  exact ⟨_, haccept⟩

theorem accept_of_number_error {error : Error} (h : value.number = .error error) :
    running.accept combine value = (.error error, running) := by
  cases value with
  | int | real => cases h
  | symbol | pair | empty =>
      cases h
      rfl

theorem isNumber_of_accept (h : running.accept combine value = (.ok (), next)) :
    value.isNumber = true := by
  cases value with
  | int | real => rfl
  | symbol | pair | empty => cases h

/-- A total that has turned a value away is as it was. -/
theorem eq_of_accept_error {error : Error}
    (h : running.accept combine value = (.error error, next)) : next = running := by
  cases value with
  | int | real => cases h
  | symbol | pair | empty =>
      cases h
      rfl

/-- A number leaves the kind of a total as it is or makes it a real. -/
theorem isInt_of_accept (h : running.accept combine value = (.ok (), next)) :
    next.isInt = true ↔ running.isInt = true ∧ value.kind = .int := by
  cases value with
  | int n =>
      cases h
      exact (and_iff_left rfl).symm
  | real x =>
      cases h
      exact iff_of_false Bool.false_ne_true fun hboth => nomatch hboth.2
  | symbol | pair | empty => cases h

/-- A total is an integer if it began as one and has taken nothing but integers. -/
theorem isInt_feedLast {values : List Value}
    (hnumbers : ∀ value ∈ values, value.isNumber = true) :
    (feedLast (accept combine) running values).isInt = true ↔
      running.isInt = true ∧ ∀ value ∈ values, value.kind = .int := by
  induction values generalizing running with
  | nil => simp [feedLast]
  | cons value rest ih =>
      obtain ⟨hvalue, hrest⟩ := List.forall_mem_cons.1 hnumbers
      obtain ⟨next, haccept⟩ := exists_accept hvalue combine running
      rw [feedLast_cons haccept, ih hrest, isInt_of_accept haccept, List.forall_mem_cons,
        and_assoc]

theorem kind_finish (running : RunningTotal) :
    running.finish.kind = if running.isInt then .int else .real := by
  rw [finish, apply_ite Value.kind]
  rfl

end RunningTotal

namespace Ascent

variable {ascent following : Ascent} {value : Value}

theorem next_of_number {x : Float} (h : value.number = .ok x) (ascent : Ascent) :
    ∃ above, ascent.next value = (.ok (), ⟨ascent.holds && above, some x⟩) := by
  rw [next, h]
  exact ⟨_, rfl⟩

theorem next_of_number_error {error : Error} (h : value.number = .error error) :
    ascent.next value = (.error error, ascent) := by
  rw [next, h]

/-- An ascent that has turned a value away is as it was. -/
theorem eq_of_next_error {error : Error} (h : ascent.next value = (.error error, following)) :
    following = ascent := by
  rw [next] at h
  split at h
  · cases h
    rfl
  · cases h

/-- No step mends an ascent, whether it fails or not. -/
theorem holds_of_next {answer : Except Error Unit} (h : ascent.next value = (answer, following))
    (hfollowing : following.holds = true) : ascent.holds = true := by
  rw [next] at h
  split at h
  · cases h
    exact hfollowing
  · cases h
    exact (Bool.and_eq_true_iff.1 hfollowing).1

/-- An ascent that has been broken stays so, whatever comes behind. -/
theorem holds_of_feedLast {values : List Value}
    (h : (feedLast next ascent values).holds = true) : ascent.holds = true := by
  induction values generalizing ascent with
  | nil => exact h
  | cons value rest ih =>
      rcases hnext : ascent.next value with ⟨answer, following⟩
      rw [feedLast_cons hnext] at h
      exact holds_of_next hnext (ih h)

end Ascent

end Sexpr

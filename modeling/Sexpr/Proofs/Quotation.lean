import Mathlib.Logic.Function.Iterate
import Sexpr.Proofs.Halves

/-!
# Evaluating what was quoted

`quote` gives its operand back unevaluated, and `eval` evaluates its operand twice. So one
undoes the other: the first of the two evaluations takes the quotation off and does nothing
else, and the second one begins in the very state in which it has found everything.

It makes no difference here whether an expression is handed on or a copy of it. A copy is
put together from the end of a chain back to its front, and comes out as the value that was
copied, with the signs of its zeros and whatever its chains end in.
-/

namespace Sexpr

/-! ## Copies -/

namespace Value

/-- The elements that wait are put in front of what is still to be copied. -/
theorem copyOnto_eq (value : Value) (copied : List Value) :
    value.copyOnto copied = copied.foldl (fun tail head => pair head tail) value := by
  induction value generalizing copied with
  | pair car cdr ihcar ihcdr =>
      rw [copyOnto, ihcdr, ihcar]
      rfl
  | int | real | symbol | empty => rfl

theorem copy_eq (value : Value) : value.copy = value :=
  copyOnto_eq value []

end Value

/-! ## Twice -/

section

variable {expression value : Value} {machine after : Machine} {answer : Except Error Value}

theorem returns_quoted_iff :
    Returns (quoted value) machine answer after ↔ answer = .ok value ∧ after = machine := by
  constructor
  · intro h
    exact returns_unique h (returns_quoted value machine)
  · rintro ⟨rfl, rfl⟩
    exact returns_quoted value after

theorem eval_twice (expression : Value) (fuel : Nat) :
    eval (fuel + 1) (application .eval [expression]) =
      (eval fuel expression >>= fun code => eval fuel code) := by
  funext machine
  rw [eval_application rfl]
  rfl

/-- `eval` fails with its operand, or evaluates what has come of it. -/
theorem returns_eval_iff :
    Returns (application .eval [expression]) machine answer after ↔
      (∃ error, Returns expression machine (.error error) after ∧ answer = .error error) ∨
        ∃ code middle, Returns expression machine (.ok code) middle ∧
          Returns code middle answer after := by
  constructor
  · rintro ⟨fuel, h⟩
    cases fuel with
    | zero => cases h
    | succ fuel =>
        rw [eval_twice] at h
        obtain ⟨error, herror, rfl⟩ | ⟨code, middle, hcode, hrest⟩ := Action.bind_eq_done h
        · exact .inl ⟨error, ⟨fuel, herror⟩, rfl⟩
        · exact .inr ⟨code, middle, ⟨fuel, hcode⟩, fuel, hrest⟩
  · rintro (⟨error, ⟨fuel, herror⟩, rfl⟩ | ⟨code, middle, ⟨fuel, hcode⟩, more, hrest⟩)
    · refine ⟨fuel + 1, ?_⟩
      rw [eval_twice]
      exact Action.bind_of_error herror
    · refine ⟨max fuel more + 1, ?_⟩
      rw [eval_twice, Action.bind_of_done (eval_mono (Nat.le_max_left fuel more) hcode)]
      exact eval_mono (Nat.le_max_right fuel more) hrest

end

/-- An expression that is quoted and then evaluated after all. -/
def unquoted (expression : Value) : Value :=
  application .eval [quoted expression]

theorem returns_unquoted_iff {expression : Value} {machine after : Machine}
    {answer : Except Error Value} :
    Returns (unquoted expression) machine answer after ↔
      Returns expression machine answer after := by
  rw [unquoted, returns_eval_iff]
  constructor
  · rintro (⟨error, hquoted, -⟩ | ⟨code, middle, hquoted, hcode⟩)
    · cases (returns_quoted_iff.1 hquoted).1
    · obtain ⟨hok, rfl⟩ := returns_quoted_iff.1 hquoted
      cases hok
      exact hcode
  · intro h
    exact .inr ⟨expression, machine, returns_quoted expression machine, h⟩

/-- What was quoted is a copy of the expression, and to evaluate it is to evaluate the
expression: from every state one returns if the other does, with the same answer, and the
state it leaves is the same. That is so for any number of layers. -/
theorem returns_eval_quoted (expression : Value) (machine : Machine) :
    Returns (quoted expression) machine (.ok expression.copy) machine ∧
    ∀ answer after,
      (Returns (application .eval [quoted expression]) machine answer after ↔
        Returns expression machine answer after) ∧
      ∀ layers, (Returns (unquoted^[layers] expression) machine answer after ↔
        Returns expression machine answer after) := by
  refine ⟨?_, fun answer after => ⟨returns_unquoted_iff, fun layers => ?_⟩⟩
  · rw [Value.copy_eq]
    exact returns_quoted expression machine
  · induction layers with
    | zero => exact Iff.rfl
    | succ layers ih =>
        -- The outermost layer is the one to come off first.
        rw [Function.iterate_succ_apply']
        exact returns_unquoted_iff.trans ih

/-- Three layers around a definition bind its name once. -/
example : Returns (unquoted^[3] (application .define [.symbol "x", .int 1]))
    ⟨.empty, .unbounded⟩ (.ok .empty) ⟨⟨NameMap.empty.insert "x" (.int 1)⟩, .unbounded⟩ :=
  ⟨5, rfl⟩

end Sexpr

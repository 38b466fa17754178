import Mathlib.Data.Nat.Find
import Sexpr.Proofs.Application
import Sexpr.Proofs.Returns
import Sexpr.Proofs.Symbols

/-!
# How deeply evaluations are nested

Evaluation need not end. A name may stand for code that evaluates that name
again, and then no fuel is enough (`eval_of_self_reference`). But of all the
operators only `eval` evaluates anything besides its operands. Where its symbol
does not occur in an expression, every evaluation that is made on the way is
made of a part of the expression, and the part is nested less deeply. So the
nesting of the expression is fuel enough, whatever the environment holds: a value
that is looked up is not evaluated, however much code there is in it.

Fuel says how deeply evaluations may be nested. The depth that an evaluation
gets to is the least fuel under which it ends. With less it runs out, and with
more nothing changes.
-/

namespace Sexpr

namespace Value

mutual

/-- An atom and the empty list are one deep, and a pair is one deeper than the
deepest of its elements. -/
def nesting : Value → Nat
  | pair car cdr => 1 + max car.nesting cdr.deepest
  | _ => 1

/-- The nesting of the deepest element of a chain. -/
def deepest : Value → Nat
  | pair car cdr => max car.nesting cdr.deepest
  | _ => 0

end

theorem one_le_nesting (value : Value) : 1 ≤ value.nesting := by
  cases value <;> simp [nesting]

theorem nesting_le_deepest {value element : Value} (h : element ∈ value.elements) :
    element.nesting ≤ value.deepest := by
  induction value with
  | pair car cdr _ ih =>
      simp only [elements, List.mem_cons] at h
      rw [deepest]
      rcases h with rfl | hrest
      · exact Nat.le_max_left _ _
      · exact Nat.le_trans (ih hrest) (Nat.le_max_right _ _)
  | int | real | symbol | empty => simp [elements] at h

/-- The operands of an application are nested less deeply than it is. -/
theorem nesting_lt_of_operand (head : Value) {arguments operand : Value}
    (h : operand ∈ arguments.elements) : operand.nesting < (pair head arguments).nesting := by
  have hdeepest := nesting_le_deepest h
  simp only [nesting]
  omega

end Value

/-! ## Without the symbol -/

/-- The correspondence that asks for an end on the left. -/
def endings : Correspondence fun _ => True where
  Holds P left _ := ∀ machine, ∃ answer after, left machine = .done answer after ∧
    ∀ result, answer = .ok result → P result
  pure h machine := ⟨_, machine, rfl, fun _ hok => Except.ok.inj hok ▸ h⟩
  bind {_ _ _ _ left _ _ _} h hthen machine := by
    obtain ⟨answer, middle, hleft, hanswer⟩ := h machine
    simp only [Bind.bind, Action.bind, hleft]
    cases answer with
    | ok answer => exact hthen answer (hanswer answer rfl) middle
    | error error => exact ⟨_, middle, rfl, fun _ hok => nomatch hok⟩
  fail _ machine := ⟨_, machine, rfl, fun _ hok => nomatch hok⟩
  lookup _ machine := ⟨_, machine, rfl, fun _ _ => trivial⟩
  define {name value} _ _ hfree _ machine := by
    simp only [Action.define, Environment.define_of_free hfree machine.environment value]
    exact ⟨_, _, rfl, fun _ _ => trivial⟩
  emitLine _ _ _ _ := ⟨_, _, rfl, fun _ _ => trivial⟩

theorem eval_endings {fuel : Nat} {expression : Value} (hnesting : expression.nesting ≤ fuel)
    (hfree : ¬ expression.Mentions Operator.eval.name) :
    endings.Holds (fun _ => True) (eval fuel expression) (eval fuel expression) := by
  induction fuel generalizing expression with
  | zero =>
      have hpositive := expression.one_le_nesting
      omega
  | succ fuel ih =>
      cases expression with
      | pair head arguments =>
          have hparts := (closed_not_mentions _).elements ((closed_not_mentions _).cdr hfree)
          refine apply_holds endings Closed.everything trivial ?_ ?_
          · intro operand hoperand
            have hlt := Value.nesting_lt_of_operand head hoperand
            exact ih (by omega) (hparts operand hoperand)
          · -- An application of `eval` is what the hypothesis excludes.
            rintro rfl
            exact absurd (.inl rfl) hfree
      | symbol name => exact endings.lookup trivial
      | int | real | empty => exact endings.pure trivial

/-- The evaluation of an expression in which the symbol `eval` does not occur ends
in every environment, and evaluations get no deeper on the way than the expression
is nested. -/
theorem eval_depth_le_nesting {expression : Value} (h : ¬ expression.Mentions "eval")
    (machine : Machine) :
    ∃ depth answer after, depth ≤ expression.nesting ∧
      (∀ fuel, fuel < depth → eval fuel expression machine = .outOfFuel) ∧
      ∀ fuel, depth ≤ fuel → eval fuel expression machine = .done answer after := by
  classical
  obtain ⟨answer, after, hdone, -⟩ := eval_endings (Nat.le_refl _) h machine
  have hends : ∃ fuel, eval fuel expression machine ≠ .outOfFuel :=
    ⟨expression.nesting, by rw [hdone]; exact nofun⟩
  have hdepth : Nat.find hends ≤ expression.nesting :=
    Nat.find_min' hends (by rw [hdone]; exact nofun)
  refine ⟨Nat.find hends, answer, after, hdepth, ?_, ?_⟩
  · intro fuel hlt
    exact not_not.1 (Nat.find_min hends hlt)
  · intro fuel hle
    rcases eval_truncation hdepth expression machine with hstop | ⟨hsame, -⟩
    · exact absurd hstop (Nat.find_spec hends)
    · exact eval_mono hle (hsame.trans hdone)

/-- `(if (car x) (quote (1 2)) y)` is nested four deep. That `x` is bound to code
which evaluates itself does not matter. -/
theorem eval_depth_le_nesting_if :
    ∃ depth answer after, depth ≤ 4 ∧
      (∀ fuel, fuel < depth → eval fuel
        (.list [.symbol "if", .list [.symbol "car", .symbol "x"],
          .list [.symbol "quote", .list [.int 1, .int 2]], .symbol "y"])
        ⟨⟨NameMap.empty.insert "x" (.list [.symbol "eval", .symbol "x"])⟩, .unbounded⟩ =
          .outOfFuel) ∧
      ∀ fuel, depth ≤ fuel → eval fuel
        (.list [.symbol "if", .list [.symbol "car", .symbol "x"],
          .list [.symbol "quote", .list [.int 1, .int 2]], .symbol "y"])
        ⟨⟨NameMap.empty.insert "x" (.list [.symbol "eval", .symbol "x"])⟩, .unbounded⟩ =
          .done answer after :=
  @eval_depth_le_nesting
    (.list [.symbol "if", .list [.symbol "car", .symbol "x"],
      .list [.symbol "quote", .list [.int 1, .int 2]], .symbol "y"])
    (by decide) _

/-! ## With the symbol -/

/-- Where a name is bound to code that evaluates what the name is bound to, this
code runs out of any fuel. -/
theorem eval_of_self_reference {name : String} {machine : Machine}
    (h : machine.environment.lookup name = .ok (application .eval [.symbol name]))
    (fuel : Nat) : eval fuel (application .eval [.symbol name]) machine = .outOfFuel := by
  induction fuel with
  | zero => rfl
  | succ fuel ih =>
      rw [eval_application rfl]
      cases fuel with
      | zero => rfl
      | succ fuel =>
          have hcode : eval (fuel + 1) (.symbol name) machine =
              .done (.ok (application .eval [.symbol name])) machine := by
            show Action.lookup name machine = _
            rw [Action.lookup, h]
          show (eval (fuel + 1) (.symbol name) >>= eval (fuel + 1)) machine = _
          rw [Action.bind_of_done hcode, ih]

end Sexpr

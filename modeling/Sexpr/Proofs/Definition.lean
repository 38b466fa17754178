import Sexpr.Proofs.Returns

/-!
# What a definition leaves

A definition looks at its name first, then evaluates its expression, and binds the name
last of all. So it has no effect of its own until the expression has a value. If there is
none, the definition fails as the expression does, and leaves what that has left.

The expression may bind names as well, and the name that is being defined is no exception.
All of that is done with when the definition binds its value, and the one binding it makes
is put in place of whatever the expression has bound to the name.
-/

namespace Sexpr

/-- An expression that binds a name to the value of another expression. -/
def definition (name : String) (expression : Value) : Value :=
  application .define [.symbol name, expression]

section

variable {name : String} {expression value : Value} {machine after : Machine}

/-- Of a name that may be bound, nothing is left of the checks. -/
theorem eval_definition (h : Operator.ofName? name = none) (expression : Value) (fuel : Nat) :
    eval (fuel + 1) (definition name expression) =
      (eval fuel expression >>= fun value =>
        Action.define name value >>= fun _ => pure .empty) := by
  have hcheck : Environment.checkDefinable name = .ok () := by
    rw [Environment.checkDefinable, h]
  funext machine
  rw [definition, eval_application rfl]
  refine (Action.bind_of_done rfl).trans ((Action.bind_of_done rfl).trans ?_)
  rw [hcheck]
  rfl

theorem returns_definition_error (hname : Operator.ofName? name = none) {error : Error}
    (h : Returns expression machine (.error error) after) :
    Returns (definition name expression) machine (.error error) after := by
  obtain ⟨fuel, h⟩ := h
  refine ⟨fuel + 1, ?_⟩
  rw [eval_definition hname]
  exact Action.bind_of_error h

theorem returns_definition_value (hname : Operator.ofName? name = none)
    (h : Returns expression machine (.ok value) after) :
    ∃ environment, after.environment.define name value = (.ok (), environment) ∧
      Returns (definition name expression) machine (.ok .empty) { after with environment } := by
  obtain ⟨fuel, h⟩ := h
  have hdefine := Environment.define_of_free hname after.environment value
  have hbind : Action.define name value after =
      .done (.ok ()) ⟨⟨after.environment.bindings.insert name value⟩, after.sink⟩ := by
    rw [Action.define, hdefine]
  refine ⟨_, hdefine, fuel + 1, ?_⟩
  rw [eval_definition hname, Action.bind_of_done h]
  exact Action.bind_of_done hbind

theorem returns_symbol_of_bound (h : machine.environment.lookup name = .ok value) :
    Returns (.symbol name) machine (.ok value) machine := by
  refine ⟨1, ?_⟩
  show Action.lookup name machine = _
  rw [Action.lookup, h]

end

/-- A definition fails as its expression does, and in the same state. If the expression has
a value, the definition leaves the same sink and the same bindings, but for the name, which
is bound to that value. -/
theorem returns_definition {name : String} (hname : OperatorTable.standard.contains name = false)
    {expression : Value} {machine after : Machine} {answer : Except Error Value}
    (h : Returns expression machine answer after) :
    (∀ error, answer = .error error →
      Returns (definition name expression) machine (.error error) after) ∧
    ∀ value, answer = .ok value → ∃ environment,
      Returns (definition name expression) machine (.ok .empty) ⟨environment, after.sink⟩ ∧
      (∀ other, environment.lookup other =
        if other = name then .ok value else after.environment.lookup other) ∧
      ∀ sink, Returns (.symbol name) ⟨environment, sink⟩ (.ok value) ⟨environment, sink⟩ := by
  rw [OperatorTable.contains_standard, Option.isSome_eq_false_iff, Option.isNone_iff_eq_none]
    at hname
  refine ⟨fun error herror => ?_, fun value hvalue => ?_⟩
  · subst herror
    exact returns_definition_error hname h
  · subst hvalue
    obtain ⟨environment, hdefine, hreturns⟩ := returns_definition_value hname h
    have hlookup := Environment.lookup_define hdefine
    refine ⟨environment, hreturns, hlookup, fun sink => returns_symbol_of_bound ?_⟩
    rw [hlookup, if_pos rfl]

/-- `x` is bound to one. `(+ x (if (define x 5) x 0))` reads the one, binds `x` to five and
has the value six, which is what `x` is bound to in the end. `(if (define x 5) y 0)` fails
for want of `y`, and then `x` stays bound to five. -/
theorem returns_definition_twice :
    (∃ environment,
      Returns (definition "x"
          (application .add [.symbol "x",
            application .choice [definition "x" (.int 5), .symbol "x", .int 0]]))
        ⟨⟨NameMap.empty.insert "x" (.int 1)⟩, .unbounded⟩ (.ok .empty)
        ⟨environment, .unbounded⟩ ∧
      (∀ other, environment.lookup other =
        if other = "x" then .ok (.int 6)
        else Environment.lookup ⟨NameMap.empty.insert "x" (.int 5)⟩ other) ∧
      ∀ sink, Returns (.symbol "x") ⟨environment, sink⟩ (.ok (.int 6)) ⟨environment, sink⟩) ∧
    Returns (definition "x"
        (application .choice [definition "x" (.int 5), .symbol "y", .int 0]))
      ⟨⟨NameMap.empty.insert "x" (.int 1)⟩, .unbounded⟩ (.error (.unboundSymbol "y"))
      ⟨⟨NameMap.empty.insert "x" (.int 5)⟩, .unbounded⟩ := by
  have hsum : Returns
      (application .add [.symbol "x",
        application .choice [definition "x" (.int 5), .symbol "x", .int 0]])
      ⟨⟨NameMap.empty.insert "x" (.int 1)⟩, .unbounded⟩ (.ok (.int 6))
      ⟨⟨NameMap.empty.insert "x" (.int 5)⟩, .unbounded⟩ := ⟨4, rfl⟩
  have hchoice : Returns (application .choice [definition "x" (.int 5), .symbol "y", .int 0])
      ⟨⟨NameMap.empty.insert "x" (.int 1)⟩, .unbounded⟩ (.error (.unboundSymbol "y"))
      ⟨⟨NameMap.empty.insert "x" (.int 5)⟩, .unbounded⟩ := ⟨3, rfl⟩
  exact ⟨(returns_definition (by decide) hsum).2 _ rfl,
    (returns_definition (by decide) hchoice).1 _ rfl⟩

end Sexpr

import Sexpr.Proofs.Course

/-!
# Errors tell the truth

An error is raised somewhere deep inside of an evaluation, possibly in code that
did not exist when the evaluation began, and it is read at the top. In between
it could go stale: a symbol that was unbound where the error was raised could be
bound by the time the error is reported. It does not, because a run fails at the
end of its course. So each error may be held against the state that is left when
it is reported, and what it says is so there.

An error of the sink is the one that speaks of the run and not of a state. It
says that the run had come to print a value, and that this was the line which
the sink did not take in.
-/

namespace Sexpr

/-- What an error says is so, after an evaluation has led from one state to
another. Two of the errors say nothing besides their name. -/
def Error.Truthful (before after : Machine) : Error → Prop
  | typeMismatch expected found => (expected = .pair ∨ expected = .symbol) ∧ found ≠ expected
  | notNumeric found => found ≠ .int ∧ found ≠ .real
  | arityMismatch name expected received =>
      ∃ operator : Operator, operator.name = name ∧ operator.arity = expected ∧
        expected.accepts received = false
  | notAnOperator found => found ≠ .symbol
  | unknownOperator name => OperatorTable.standard.contains name = false
  | unboundSymbol name => after.environment.contains name = false
  | reservedName name => OperatorTable.standard.contains name = true
  | output reason =>
      ∃ (reached : Machine) (value : Value) (text : String) (sink : ByteSink),
        Course before reached ∧ value.render = .ok text ∧
          reached.sink.writeLine text = (.error (.output reason), sink) ∧
          after = { reached with sink }
  | divisionByZero | malformedList => True

/-- An error that does not depend on the state tells the truth in every
state. -/
theorem Grounded.truthful {Good : Value → Prop} {error : Error} (h : Grounded Good error)
    (before after : Machine) : error.Truthful before after := by
  cases h with
  | typeMismatch hexpected hfound => exact ⟨hexpected, hfound⟩
  | notNumeric hint hreal => exact ⟨hint, hreal⟩
  | arityMismatch hcount => exact ⟨_, rfl, rfl, hcount⟩
  | notAnOperator hkind => exact hkind
  | unknownOperator hname =>
      show NameMap.contains _ _ = false
      rw [NameMap.contains, hname]
      rfl
  | reservedName =>
      show OperatorTable.standard.contains _ = true
      rw [OperatorTable.contains_standard, Operator.ofName?_eq_some_iff.2 rfl]
      rfl
  | divisionByZero | malformedList => trivial

theorem Failure.truthful {before reached after : Machine} {error : Error}
    (h : Failure reached error after) (hcourse : Course before reached) :
    error.Truthful before after := by
  cases h with
  | grounded hgrounded => exact hgrounded.truthful before reached
  | unbound hname => exact hname
  | cut hrender hwrite =>
      obtain rfl := ByteSink.error_eq_full hwrite
      exact ⟨reached, _, _, _, hcourse, hrender, hwrite, rfl⟩

/-- What an evaluation that fails reports is so: of the operators and the kinds
of values, of the environment as the evaluation leaves it, and of the line that
was not taken in. -/
theorem returns_truthful {expression : Value} {machine after : Machine} {error : Error}
    (h : Returns expression machine (.error error) after) : error.Truthful machine after := by
  obtain ⟨reached, hcourse, hfailure⟩ := h.failure
  exact hfailure.truthful hcourse

/-- `(eval (cons (quote print) (cons (quote y) (define x 1))))` puts `(print y)`
together while it binds `x`, and then finds `y` unbound. -/
theorem returns_truthful_unbound :
    Returns (.list [.symbol "eval", .list [.symbol "cons",
        .list [.symbol "quote", .symbol "print"], .list [.symbol "cons",
          .list [.symbol "quote", .symbol "y"],
          .list [.symbol "define", .symbol "x", .int 1]]]])
      ⟨.empty, .unbounded⟩ (.error (.unboundSymbol "y"))
      ⟨⟨NameMap.empty.insert "x" (.int 1)⟩, .unbounded⟩ ∧
    (⟨NameMap.empty.insert "x" (.int 1)⟩ : Environment).contains "y" = false := by
  have hreturns : Returns (.list [.symbol "eval", .list [.symbol "cons",
        .list [.symbol "quote", .symbol "print"], .list [.symbol "cons",
          .list [.symbol "quote", .symbol "y"],
          .list [.symbol "define", .symbol "x", .int 1]]]])
      ⟨.empty, .unbounded⟩ (.error (.unboundSymbol "y"))
      ⟨⟨NameMap.empty.insert "x" (.int 1)⟩, .unbounded⟩ :=
    ⟨5, rfl⟩
  exact ⟨hreturns, returns_truthful hreturns⟩

end Sexpr

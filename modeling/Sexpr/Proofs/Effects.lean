import Sexpr.Proofs.Bindings
import Sexpr.Proofs.Returns
import Sexpr.Proofs.Symbols

/-!
# No effect without its operator's symbol

Code can be put together while it runs: quoted, consed, kept in a variable and
handed to `eval`. So that a binding is never made cannot be read off the calls
in an expression. It can be read off the symbols. If `define` is mentioned
neither in the expression nor in anything bound, it is not mentioned in any
value that turns up on the way, and an application that binds a name would have
had to mention it. The same goes for `print` and what is printed; there the
environment may change, but what is bound then is a value that turned up on the
way.
-/

namespace Sexpr

/-- The discipline of a run in which `define` is not mentioned. -/
def unboundDiscipline : Discipline fun value => ¬ value.Mentions "define" where
  Allowed machine := machine.environment.Every fun value => ¬ value.Mentions "define"
  Follows before after := after.environment = before.environment
  Blame _ _ := True
  refl _ := rfl
  trans h k := k.trans h
  grounded _ := trivial
  lookup _ hallowed := hallowed.lookup fun _ _ => trivial
  define hdefine := absurd rfl hdefine
  emitLine _ hallowed _ := ⟨hallowed, rfl, fun _ _ => trivial⟩

/-- The discipline of a run in which `print` is not mentioned. -/
def silentDiscipline : Discipline fun value => ¬ value.Mentions "print" where
  Allowed machine := machine.environment.Every fun value => ¬ value.Mentions "print"
  Follows before after := after.sink = before.sink
  Blame _ _ := True
  refl _ := rfl
  trans h k := k.trans h
  grounded _ := trivial
  lookup _ hallowed := hallowed.lookup fun _ _ => trivial
  define _ _ hvalue hallowed hdefine := ⟨hallowed.define hvalue hdefine, rfl⟩
  emitLine hprint := absurd rfl hprint

/-- An evaluation binds nothing unless `define` is mentioned, and prints nothing
unless `print` is. -/
theorem returns_effects {expression : Value} {machine after : Machine}
    {answer : Except Error Value} (h : Returns expression machine answer after) :
    (¬ expression.Mentions "define" →
      machine.environment.Every (fun value => ¬ value.Mentions "define") →
      after.environment = machine.environment) ∧
    (¬ expression.Mentions "print" →
      machine.environment.Every (fun value => ¬ value.Mentions "print") →
      after.sink = machine.sink) := by
  constructor
  · intro hexpression hbound
    obtain ⟨-, -, -, hsame⟩ :=
      unboundDiscipline.of_returns (closed_not_mentions _) hexpression hbound h
    exact hsame
  · intro hexpression hbound
    obtain ⟨-, -, -, hsame⟩ :=
      silentDiscipline.of_returns (closed_not_mentions _) hexpression hbound h
    exact hsame

/-- `(print x)` leaves the binding of `x` as it is, and `(eval (quote (define x 3)))`
leaves the sink as it is. -/
theorem returns_effects_print_define :
    (Returns (.list [.symbol "print", .symbol "x"])
        ⟨⟨NameMap.empty.insert "x" (.int 2)⟩, .unbounded⟩ (.ok .empty)
        ⟨⟨NameMap.empty.insert "x" (.int 2)⟩, (ByteSink.unbounded.writeLine "2").2⟩ ∧
      (⟨NameMap.empty.insert "x" (.int 2)⟩ : Environment) =
        ⟨NameMap.empty.insert "x" (.int 2)⟩) ∧
    (Returns (.list [.symbol "eval",
          .list [.symbol "quote", .list [.symbol "define", .symbol "x", .int 3]]])
        ⟨⟨NameMap.empty.insert "x" (.int 2)⟩, .unbounded⟩ (.ok .empty)
        ⟨⟨(NameMap.empty.insert "x" (.int 2)).insert "x" (.int 3)⟩, .unbounded⟩ ∧
      ByteSink.unbounded = ByteSink.unbounded) := by
  have hbound (word : String) : (⟨NameMap.empty.insert "x" (.int 2)⟩ : Environment).Every
      fun value => ¬ value.Mentions word :=
    (Environment.every_empty _).define id (Environment.define_of_free rfl _ _)
  have hprint : Returns (.list [.symbol "print", .symbol "x"])
      ⟨⟨NameMap.empty.insert "x" (.int 2)⟩, .unbounded⟩ (.ok .empty)
      ⟨⟨NameMap.empty.insert "x" (.int 2)⟩, (ByteSink.unbounded.writeLine "2").2⟩ :=
    ⟨2, rfl⟩
  have hdefine : Returns (.list [.symbol "eval",
        .list [.symbol "quote", .list [.symbol "define", .symbol "x", .int 3]]])
      ⟨⟨NameMap.empty.insert "x" (.int 2)⟩, .unbounded⟩ (.ok .empty)
      ⟨⟨(NameMap.empty.insert "x" (.int 2)).insert "x" (.int 3)⟩, .unbounded⟩ :=
    ⟨3, rfl⟩
  exact ⟨⟨hprint, (returns_effects hprint).1 (by decide) (hbound "define")⟩,
    hdefine, (returns_effects hdefine).2 (by decide) (hbound "print")⟩

end Sexpr

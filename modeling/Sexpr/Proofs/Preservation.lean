import Sexpr.Proofs.Bindings
import Sexpr.Proofs.Output
import Sexpr.Proofs.Returns

/-!
# Evaluation keeps values well-formed

Nothing checks that the chains it is given end well, except where it has to walk
one. It is enough that no operator makes a chain that ends badly out of chains
that end well: `cons` is the only one that makes a pair, and it looks at the kind
of the tail, which tells a chain from an atom. The tail is itself the value of
an expression, and so on down to the values the evaluation began with. These are
the expression and what the names are bound to; whatever is bound on the way is
the value of an expression again, and so is whatever `eval` evaluates.

So the walks that could complain never do. An evaluation that begins with
well-formed values does not fail with `malformedList`, though it may fail
otherwise, and then the bindings it has made are well-formed too.
-/

namespace Sexpr

theorem closed_wellFormed : Closed Value.WellFormed where
  int _ := trivial
  real _ := trivial
  empty := trivial
  pair hcar hcdr hlist := ⟨hcar, hlist, hcdr⟩
  car h := h.1
  cdr h := h.2.2

theorem Grounded.ne_malformedList {error : Error} (h : Grounded Value.WellFormed error) :
    error ≠ .malformedList := by
  rintro rfl
  cases h with
  | malformedList hwell hill => exact hill hwell

/-- The discipline of a run whose values are all well-formed. -/
def wellFormedDiscipline : Discipline Value.WellFormed where
  Allowed machine := machine.environment.Every Value.WellFormed
  Follows _ _ := True
  Blame error _ := error ≠ .malformedList
  refl _ := trivial
  trans _ _ := trivial
  grounded h := h.ne_malformedList
  lookup _ hallowed := by
    refine hallowed.lookup fun error herror => ?_
    rintro rfl
    rw [Environment.lookup] at herror
    split at herror <;> cases herror
  define _ _ hvalue hallowed hdefine := ⟨hallowed.define hvalue hdefine, trivial⟩
  emitLine {text machine answer sink} _ hallowed hwrite := by
    refine ⟨hallowed, trivial, ?_⟩
    rintro error rfl rfl
    exact nomatch ByteSink.error_eq_full hwrite

/-- An evaluation that begins with well-formed values ends with well-formed
values, and does not complain of a malformed list. -/
theorem returns_wellFormed {expression : Value} {machine after : Machine}
    {answer : Except Error Value} (hexpression : expression.WellFormed)
    (hbound : machine.environment.Every Value.WellFormed)
    (h : Returns expression machine answer after) :
    (∀ value, answer = .ok value → value.WellFormed) ∧
    after.environment.Every Value.WellFormed ∧
    answer ≠ .error .malformedList := by
  obtain ⟨hvalue, hblame, hallowed, -⟩ :=
    wellFormedDiscipline.of_returns closed_wellFormed hexpression hbound h
  exact ⟨hvalue, hallowed, fun herror => hblame _ herror rfl⟩

/-- `(define ys (cons 1 xs))` with `xs` bound to `(2)`. -/
theorem returns_wellFormed_define :
    (⟨(NameMap.empty.insert "xs" (.list [.int 2])).insert "ys" (.list [.int 1, .int 2])⟩ :
      Environment).Every Value.WellFormed := by
  have hbound : (⟨NameMap.empty.insert "xs" (.list [.int 2])⟩ : Environment).Every
      Value.WellFormed :=
    (Environment.every_empty _).define (by decide) (Environment.define_of_free rfl _ _)
  have hreturns : Returns
      (.list [.symbol "define", .symbol "ys", .list [.symbol "cons", .int 1, .symbol "xs"]])
      ⟨⟨NameMap.empty.insert "xs" (.list [.int 2])⟩, .unbounded⟩ (.ok .empty)
      ⟨⟨(NameMap.empty.insert "xs" (.list [.int 2])).insert "ys" (.list [.int 1, .int 2])⟩,
        .unbounded⟩ :=
    ⟨3, rfl⟩
  exact (returns_wellFormed (by decide) hbound hreturns).2.1

end Sexpr

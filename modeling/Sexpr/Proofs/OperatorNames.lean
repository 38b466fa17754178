import Mathlib.Logic.Basic
import Sexpr.Proofs.Course

/-!
# Operator names are never bound

Every name is of one of two sorts. Either an application dispatches on it, or it
may be bound, and the table that dispatches and the check before a binding are
agreed on which, although the one looks a name up in an ordered table and the
other walks the list of all operators.

So an environment can be trusted not to bind an operator's name however it came
about. Whoever holds one can bind names in it, with or without success, evaluate
expressions in it, put a copy of it aside and go back to such a copy. None of
these binds an operator's name if none was bound before. Of evaluation this is
shown of its course, and it does not matter whether the evaluation succeeds or
where on the way it fails.
-/

namespace Sexpr

/-- No name of an operator is bound. -/
def Environment.FreeOfOperators (environment : Environment) : Prop :=
  ∀ operator : Operator, environment.contains operator.name = false

theorem Environment.freeOfOperators_empty : empty.FreeOfOperators := by
  intro operator
  rfl

theorem Environment.FreeOfOperators.define {environment extended : Environment} {name : String}
    {value : Value} (h : environment.FreeOfOperators)
    (hdefine : environment.define name value = (.ok (), extended)) :
    extended.FreeOfOperators := by
  intro operator
  rw [Bool.eq_false_iff]
  intro hbound
  rcases (contains_define hdefine operator.name).1 hbound with heq | hbefore
  · have hfree := (define_eq_ok hdefine).1
    rw [Operator.ofName?_eq_some_iff.2 heq] at hfree
    cases hfree
  · rw [h operator] at hbefore
    cases hbefore

/-! ## Two checks of a name -/

theorem Environment.exists_define_iff {environment : Environment} {name : String} {value : Value} :
    (∃ extended, environment.define name value = (.ok (), extended)) ↔
      Operator.ofName? name = none := by
  constructor
  · rintro ⟨extended, h⟩
    exact (define_eq_ok h).1
  · intro h
    exact ⟨_, define_of_free h environment value⟩

theorem OperatorTable.exists_find?_iff {name : String} :
    (∃ entry, OperatorTable.standard.find? name = some entry) ↔ Operator.ofName? name ≠ none := by
  rw [OperatorTable.find?_standard]
  cases Operator.ofName? name with
  | some operator => simp
  | none => simp

/-! ## What may be done with an environment -/

/-- An environment in use, and copies that were put aside. -/
structure Workspace where
  current : Environment
  kept : List Environment

namespace Workspace

def start : Workspace := ⟨.empty, []⟩

inductive Step (before : Workspace) : Workspace → Prop where
  | defined {name : String} {value : Value} {environment : Environment}
      (h : before.current.define name value = (.ok (), environment)) :
      Step before { before with current := environment }
  | rejected {name : String} {value : Value} {environment : Environment} {error : Error}
      (h : before.current.define name value = (.error error, environment)) :
      Step before { before with current := environment }
  | evaluated {expression : Value} {sink : ByteSink} {answer : Except Error Value}
      {after : Machine} (h : Returns expression ⟨before.current, sink⟩ answer after) :
      Step before { before with current := after.environment }
  | cloned : Step before { before with kept := before.current :: before.kept }
  | restored {environment : Environment} (h : environment ∈ before.kept) :
      Step before { before with current := environment }

/-- What a workspace may have become, after any number of steps. -/
abbrev Reaches : Workspace → Workspace → Prop :=
  Relation.ReflTransGen Step

/-- No name of an operator is bound, nor would it be after going back. -/
structure FreeOfOperators (workspace : Workspace) : Prop where
  current : workspace.current.FreeOfOperators
  kept : ∀ environment ∈ workspace.kept, environment.FreeOfOperators

end Workspace

theorem Effect.freeOfOperators {before after : Machine} (h : Effect before after)
    (hfree : before.environment.FreeOfOperators) : after.environment.FreeOfOperators := by
  cases h with
  | bound hdefine => exact hfree.define hdefine
  | printed => exact hfree

theorem Returns.freeOfOperators {expression : Value} {machine after : Machine}
    {answer : Except Error Value} (h : Returns expression machine answer after)
    (hfree : machine.environment.FreeOfOperators) : after.environment.FreeOfOperators := by
  obtain ⟨reached, hcourse, henvironment⟩ := h.course_environment
  rw [henvironment]
  exact hcourse.keeps (P := fun machine => machine.environment.FreeOfOperators)
    Effect.freeOfOperators hfree

theorem Workspace.Step.freeOfOperators {before after : Workspace} (h : before.Step after)
    (hfree : before.FreeOfOperators) : after.FreeOfOperators := by
  cases h with
  | defined hdefine => exact ⟨hfree.current.define hdefine, hfree.kept⟩
  | rejected hdefine =>
      obtain rfl := Environment.eq_of_define_error hdefine
      exact hfree
  | evaluated hreturns => exact ⟨hreturns.freeOfOperators hfree.current, hfree.kept⟩
  | cloned => exact ⟨hfree.current, List.forall_mem_cons.2 ⟨hfree.current, hfree.kept⟩⟩
  | restored hmem => exact ⟨hfree.kept _ hmem, hfree.kept⟩

theorem Workspace.Reaches.freeOfOperators {first last : Workspace} (h : first.Reaches last)
    (hfree : first.FreeOfOperators) : last.FreeOfOperators := by
  induction h with
  | refl => exact hfree
  | tail _ hstep ih => exact hstep.freeOfOperators ih

/-- A symbol that is not bound has no value, and looking for one changes
nothing. -/
theorem returns_symbol_of_unbound {name : String} {machine : Machine}
    (h : machine.environment.contains name = false) :
    Returns (.symbol name) machine (.error (.unboundSymbol name)) machine := by
  refine ⟨1, ?_⟩
  show Action.lookup name machine = _
  rw [Action.lookup, Environment.lookup_eq_error_iff.2 ⟨rfl, h⟩]

/-- Each name either dispatches, to the operator of that name with that
operator's arity, or may be bound. Whatever has been done with an environment,
it binds no operator's name, and the symbol of an operator has no value in it. -/
theorem operator_names_unbound :
    (∀ (name : String) (environment : Environment) (value : Value),
      Xor (∃ entry, OperatorTable.standard.find? name = some entry)
        (∃ extended, environment.define name value = (.ok (), extended))) ∧
    (∀ name entry, OperatorTable.standard.find? name = some entry →
      Operator.ofName? name = some entry.operator ∧ entry.arity = entry.operator.arity) ∧
    ∀ workspace, Workspace.start.Reaches workspace → ∀ operator : Operator,
      workspace.current.contains operator.name = false ∧
      ∀ sink answer after,
        Returns (.symbol operator.name) ⟨workspace.current, sink⟩ answer after ↔
          answer = .error (.unboundSymbol operator.name) ∧ after = ⟨workspace.current, sink⟩ := by
  refine ⟨?_, ?_, ?_⟩
  · intro name environment value
    rw [xor_iff_iff_not, OperatorTable.exists_find?_iff, Environment.exists_define_iff]
  · intro name entry hentry
    obtain ⟨hname, harity⟩ := OperatorTable.find?_standard_eq_some hentry
    exact ⟨Operator.ofName?_eq_some_iff.2 hname, harity⟩
  · intro workspace hreaches operator
    have hstart : Workspace.start.FreeOfOperators :=
      ⟨Environment.freeOfOperators_empty, fun _ hmem => nomatch hmem⟩
    have hfree := (hreaches.freeOfOperators hstart).current operator
    refine ⟨hfree, ?_⟩
    intro sink answer after
    have hunbound : Returns (.symbol operator.name) ⟨workspace.current, sink⟩
        (.error (.unboundSymbol operator.name)) ⟨workspace.current, sink⟩ :=
      returns_symbol_of_unbound hfree
    constructor
    · intro h
      exact returns_unique h hunbound
    · rintro ⟨rfl, rfl⟩
      exact hunbound

/-- A copy of an environment with `x` is gone back to, `car` is not let in, and
`(cons (define car 3) (define y 4))` fails when it has bound `y`. Then `car` still
has no value. -/
theorem operator_names_unbound_car :
    Returns (.symbol "car")
      ⟨⟨(NameMap.empty.insert "x" (.int 1)).insert "y" (.int 4)⟩, .unbounded⟩
      (.error (.unboundSymbol "car"))
      ⟨⟨(NameMap.empty.insert "x" (.int 1)).insert "y" (.int 4)⟩, .unbounded⟩ := by
  let x : Environment := ⟨NameMap.empty.insert "x" (.int 1)⟩
  have hdefined : Workspace.start.Step ⟨x, []⟩ :=
    .defined (Environment.define_of_free rfl .empty (.int 1))
  have hcloned : Workspace.Step ⟨x, []⟩ ⟨x, [x]⟩ := .cloned
  have hagain : Workspace.Step ⟨x, [x]⟩ ⟨⟨x.bindings.insert "x" (.int 2)⟩, [x]⟩ :=
    .defined (Environment.define_of_free rfl x (.int 2))
  have hrestored : Workspace.Step ⟨⟨x.bindings.insert "x" (.int 2)⟩, [x]⟩ ⟨x, [x]⟩ :=
    .restored List.mem_cons_self
  have hreserved : Operator.ofName? "car" = some .car := rfl
  have hrejected : Workspace.Step ⟨x, [x]⟩ ⟨x, [x]⟩ :=
    .rejected (Environment.define_of_reserved hreserved x (.int 3))
  have hreturns : Returns
      (.list [.symbol "cons", .list [.symbol "define", .symbol "car", .int 3],
        .list [.symbol "define", .symbol "y", .int 4]])
      ⟨x, .unbounded⟩ (.error (.reservedName "car"))
      ⟨⟨x.bindings.insert "y" (.int 4)⟩, .unbounded⟩ :=
    ⟨3, rfl⟩
  have hevaluated : Workspace.Step ⟨x, [x]⟩ _ := .evaluated hreturns
  have hreaches : Workspace.start.Reaches ⟨⟨x.bindings.insert "y" (.int 4)⟩, [x]⟩ :=
    (((((Relation.ReflTransGen.single hdefined).tail hcloned).tail hagain).tail hrestored).tail
      hrejected).tail hevaluated
  have hcar := (operator_names_unbound.2.2 _ hreaches .car).2 .unbounded
  exact (hcar _ _).2 ⟨rfl, rfl⟩

end Sexpr

import Sexpr.Proofs.Returns

/-!
# Applications that are turned away

An application is looked at from the outside in: its head, the name in the head, the
end of the chain of operands, their number, and for `define` the name to be bound. Each
look is taken only if the ones before it have found no fault, so of several faults the
outermost one is reported.

None of them evaluates anything. Whatever the operands would print or bind, an
application that is turned away leaves the state that it has found, and that is also why
one unit of fuel is enough to see it fail.
-/

namespace Sexpr

variable {head arguments : Value} {machine : Machine}

/-! ## The head -/

theorem returns_notAnOperator (h : head.kind ≠ .symbol) (arguments : Value) (machine : Machine) :
    Returns (.pair head arguments) machine (.error (.notAnOperator head.kind)) machine := by
  refine ⟨1, ?_⟩
  cases head with
  | symbol => exact absurd rfl h
  | int | real | pair | empty => rfl

/-- What is bound to a name does not make it the name of an operator. -/
theorem returns_unknownOperator {name : String} (h : OperatorTable.standard.find? name = none)
    (arguments : Value) (machine : Machine) :
    Returns (.pair (.symbol name) arguments) machine (.error (.unknownOperator name)) machine := by
  refine ⟨1, ?_⟩
  simp only [eval, step, apply, h]
  rfl

/-! ## The operands -/

theorem returns_of_operands_error {operator : Operator} {error : Error}
    (h : OperatorEntry.operands ⟨operator, operator.arity⟩ arguments = .error error)
    (machine : Machine) :
    Returns (.pair (.symbol operator.name) arguments) machine (.error error) machine := by
  refine ⟨1, ?_⟩
  rw [eval_named, h]
  exact Action.bind_of_error rfl

/-- A chain that ends badly is reported whatever its length. -/
theorem returns_malformedList (operator : Operator) (h : arguments.terminal ≠ .empty)
    (machine : Machine) :
    Returns (.pair (.symbol operator.name) arguments) machine (.error .malformedList) machine := by
  refine returns_of_operands_error ?_ machine
  rw [OperatorEntry.operands_eq, if_neg h]

theorem returns_arityMismatch {operator : Operator} (hend : arguments.terminal = .empty)
    (hcount : operator.arity.accepts arguments.elements.length = false) (machine : Machine) :
    Returns (.pair (.symbol operator.name) arguments) machine
      (.error (.arityMismatch operator.name operator.arity arguments.elements.length))
      machine := by
  refine returns_of_operands_error ?_ machine
  rw [OperatorEntry.operands_eq, if_pos hend, if_neg (Bool.eq_false_iff.1 hcount)]

/-! ## The name to be bound -/

/-- `define` asks for a name, and whether it may be bound, before it evaluates. -/
theorem returns_define_of_refused {target expression : Value} {error : Error}
    (h : (target.asSymbol >>= Environment.checkDefinable) = .error error) (machine : Machine) :
    Returns (application .define [target, expression]) machine (.error error) machine := by
  refine ⟨1, ?_⟩
  rw [eval_application rfl]
  cases target with
  | symbol name =>
      have hname : Environment.checkDefinable name = .error error := h
      refine (Action.bind_of_done rfl).trans
        ((Action.bind_of_done rfl).trans (Action.bind_of_error ?_))
      rw [hname]
      rfl
  | int | real | pair | empty =>
      cases h
      rfl

theorem asSymbol_of_kind_ne {target : Value} (h : target.kind ≠ .symbol) :
    target.asSymbol = .error (.typeMismatch .symbol target.kind) := by
  cases target with
  | symbol => exact absurd rfl h
  | int | real | pair | empty => rfl

theorem checkDefinable_of_contains {name : String}
    (h : OperatorTable.standard.contains name = true) :
    Environment.checkDefinable name = .error (.reservedName name) := by
  rw [OperatorTable.contains_standard] at h
  obtain ⟨operator, hname⟩ := Option.isSome_iff_exists.1 h
  rw [Environment.checkDefinable, hname]

/-! ## The order of the checks -/

/-- An application that is at fault fails for its outermost fault, and nothing is done:
its head is no symbol, or the name of no operator; its chain ends badly, or is too long or
too short; what it would bind is no name, or the name of an operator. -/
theorem returns_rejection (head arguments : Value) (machine : Machine) :
    (head.kind ≠ .symbol →
      Returns (.pair head arguments) machine (.error (.notAnOperator head.kind)) machine) ∧
    ∀ name, head = .symbol name →
      (OperatorTable.standard.find? name = none →
        Returns (.pair head arguments) machine (.error (.unknownOperator name)) machine) ∧
      ∀ entry, OperatorTable.standard.find? name = some entry →
        (arguments.terminal ≠ .empty →
          Returns (.pair head arguments) machine (.error .malformedList) machine) ∧
        (arguments.terminal = .empty →
          (entry.operator.arity.accepts arguments.elements.length = false →
            Returns (.pair head arguments) machine
              (.error (.arityMismatch name entry.operator.arity arguments.elements.length))
              machine) ∧
          (entry.operator.arity.accepts arguments.elements.length = true →
            entry.operator = .define →
            ∀ target, arguments.elements.head? = some target →
              (target.kind ≠ .symbol →
                Returns (.pair head arguments) machine
                  (.error (.typeMismatch .symbol target.kind)) machine) ∧
              ∀ symbol, target = .symbol symbol →
                OperatorTable.standard.contains symbol = true →
                Returns (.pair head arguments) machine (.error (.reservedName symbol))
                  machine)) := by
  refine ⟨fun hkind => returns_notAnOperator hkind arguments machine, fun name hhead => ?_⟩
  subst hhead
  refine ⟨fun hnone => returns_unknownOperator hnone arguments machine, fun entry hentry => ?_⟩
  obtain ⟨rfl, -⟩ := OperatorTable.find?_standard_eq_some hentry
  refine ⟨fun hend => returns_malformedList entry.operator hend machine, fun hend => ⟨?_, ?_⟩⟩
  · exact fun hcount => returns_arityMismatch hend hcount machine
  · intro hcount hdefine target htarget
    rw [hdefine] at hcount ⊢
    -- As many operands as `define` takes are a target and an expression.
    obtain ⟨others, helements⟩ := List.head?_eq_some_iff.1 htarget
    obtain ⟨expression, rfl⟩ : ∃ expression, others = [expression] := by
      rw [helements] at hcount
      have htwo : others.length + 1 = 2 := of_decide_eq_true hcount
      exact List.length_eq_one_iff.1 (by omega)
    rw [← Value.list_elements hend, helements]
    refine ⟨fun hkind => ?_, fun symbol hsymbol hcontains => ?_⟩
    · refine returns_define_of_refused ?_ machine
      rw [asSymbol_of_kind_ne hkind]
      rfl
    · subst hsymbol
      have hrefused : ((Value.symbol symbol).asSymbol >>= Environment.checkDefinable) =
          .error (.reservedName symbol) :=
        checkDefinable_of_contains hcontains
      exact returns_define_of_refused hrefused machine

/-- Six applications that would bind `x` to two are turned away, each of them by another
check. Where a name is needed that is no operator's, it is the one that is bound. -/
theorem returns_rejection_define :
    Returns (.pair (.int 1) (.list [application .define [.symbol "x", .int 2]]))
      ⟨⟨NameMap.empty.insert "x" (.int 1)⟩, .unbounded⟩ (.error (.notAnOperator .int))
      ⟨⟨NameMap.empty.insert "x" (.int 1)⟩, .unbounded⟩ ∧
    Returns (.pair (.symbol "x") (.list [application .define [.symbol "x", .int 2]]))
      ⟨⟨NameMap.empty.insert "x" (.int 1)⟩, .unbounded⟩ (.error (.unknownOperator "x"))
      ⟨⟨NameMap.empty.insert "x" (.int 1)⟩, .unbounded⟩ ∧
    Returns (.pair (.symbol "car") (.pair (application .define [.symbol "x", .int 2]) (.int 3)))
      ⟨⟨NameMap.empty.insert "x" (.int 1)⟩, .unbounded⟩ (.error .malformedList)
      ⟨⟨NameMap.empty.insert "x" (.int 1)⟩, .unbounded⟩ ∧
    Returns (.pair (.symbol "car") (.list [application .define [.symbol "x", .int 2], .int 3]))
      ⟨⟨NameMap.empty.insert "x" (.int 1)⟩, .unbounded⟩
      (.error (.arityMismatch "car" (.exactly 1) 2))
      ⟨⟨NameMap.empty.insert "x" (.int 1)⟩, .unbounded⟩ ∧
    Returns
      (.pair (.symbol "define") (.list [.int 3, application .define [.symbol "x", .int 2]]))
      ⟨⟨NameMap.empty.insert "x" (.int 1)⟩, .unbounded⟩ (.error (.typeMismatch .symbol .int))
      ⟨⟨NameMap.empty.insert "x" (.int 1)⟩, .unbounded⟩ ∧
    Returns
      (.pair (.symbol "define")
        (.list [.symbol "car", application .define [.symbol "x", .int 2]]))
      ⟨⟨NameMap.empty.insert "x" (.int 1)⟩, .unbounded⟩ (.error (.reservedName "car"))
      ⟨⟨NameMap.empty.insert "x" (.int 1)⟩, .unbounded⟩ := by
  have hcar : OperatorTable.standard.find? "car" = some ⟨.car, .exactly 1⟩ := rfl
  have hdefine : OperatorTable.standard.find? "define" = some ⟨.define, .exactly 2⟩ := rfl
  refine ⟨?_, ?_, ?_, ?_, ?_, ?_⟩
  · exact (returns_rejection _ _ _).1 (by decide)
  · exact ((returns_rejection _ _ _).2 "x" rfl).1 rfl
  · exact (((returns_rejection _ _ _).2 "car" rfl).2 _ hcar).1 (by decide)
  · exact ((((returns_rejection _ _ _).2 "car" rfl).2 _ hcar).2 rfl).1 rfl
  · obtain ⟨-, hend⟩ := ((returns_rejection (.symbol "define")
      (.list [.int 3, application .define [.symbol "x", .int 2]]) _).2 "define" rfl).2 _ hdefine
    exact ((hend rfl).2 rfl rfl (.int 3) rfl).1 (by decide)
  · obtain ⟨-, hend⟩ := ((returns_rejection (.symbol "define")
      (.list [.symbol "car", application .define [.symbol "x", .int 2]]) _).2 "define" rfl).2 _
      hdefine
    exact ((hend rfl).2 rfl rfl (.symbol "car") rfl).2 "car" rfl rfl

end Sexpr

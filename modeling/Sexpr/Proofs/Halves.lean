import Sexpr.Proofs.Application
import Sexpr.Proofs.Preservation

/-!
# Putting lists together and taking them apart

`cons` asks of its tail only that it may stand where a list may, and for that it
looks at the kind. `car` and `cdr` walk to the end of the chain before they give
anything away. So they give back what `cons` was given whenever that chain ends in
the empty list, and otherwise both complain of a pair that `cons` has made without
complaint.

Among well-formed values there is no such pair. A chain that ends in another atom
can only come in with the expression or with a binding.

The other way round nothing can be lost. What `car` and `cdr` give away of a value are
the halves of a list, and `cons` makes the same list of them.
-/

namespace Sexpr

namespace Value

variable {value : Value} {halves : Value × Value}

theorem split_pair (head tail : Value) :
    (pair head tail).split =
      if tail.terminal = empty then .ok (head, tail) else .error .malformedList :=
  split_eq (pair head tail)

/-- What can be split is a pair, and its halves are those of the pair. -/
theorem split_eq_ok_iff :
    value.split = .ok halves ↔ value = pair halves.1 halves.2 ∧ halves.2.terminal = empty := by
  constructor
  · intro h
    obtain rfl := eq_pair_of_split h
    rw [split_pair] at h
    split at h
    · next hend => exact ⟨rfl, hend⟩
    · cases h
  · intro ⟨hpair, hend⟩
    rw [hpair, split_pair, if_pos hend]

theorem split_of_kind_ne (h : value.kind ≠ .pair) :
    value.split = .error (.typeMismatch .pair value.kind) := by
  cases value with
  | pair => exact absurd rfl h
  | int | real | symbol | empty => rfl

theorem split_of_terminal_ne (h : value.kind = .pair) (hend : value.terminal ≠ empty) :
    value.split = .error .malformedList := by
  cases value with
  | pair head tail => exact (split_pair head tail).trans (if_neg hend)
  | int | real | symbol | empty => cases h

/-- An element in front makes a list longer by one, if it is a list at all. -/
theorem length_pair (head tail : Value) :
    (pair head tail).length = tail.length.map (· + 1) := by
  rw [length_eq, length_eq, terminal, elements, List.length_cons]
  split <;> rfl

theorem exists_length_iff : (∃ count, value.length = .ok count) ↔ value.terminal = empty := by
  rw [length_eq]
  split
  · next hend => exact iff_of_true ⟨_, rfl⟩ hend
  · next hend => exact iff_of_false nofun hend

/-- What can be split are the lists that are not empty. -/
theorem exists_split_iff :
    (∃ halves, value.split = .ok halves) ↔
      value.kind = .pair ∧ ∃ count, value.length = .ok count := by
  rw [exists_length_iff]
  constructor
  · intro ⟨halves, h⟩
    obtain ⟨rfl, hend⟩ := split_eq_ok_iff.1 h
    exact ⟨rfl, hend⟩
  · intro ⟨hkind, hend⟩
    cases value with
    | pair head tail => exact ⟨(head, tail), split_eq_ok_iff.2 ⟨rfl, hend⟩⟩
    | int | real | symbol | empty => cases hkind

end Value

/-! ## Half of a value -/

section

variable {expression value : Value} {machine after : Machine}

/-- An operator that splits the value of its operand gives the half it is after, or
fails as splitting does. -/
theorem returns_half {operator : Operator} {half : Value × Value → Value}
    (hcount : operator.arity.accepts 1 = true)
    (hrun : ∀ ev : Value → Action Value, operator.run ev [expression] =
      ev expression >>= fun value => Action.ofExcept value.split >>= fun halves =>
        pure (half halves))
    (h : Returns expression machine (.ok value) after) :
    Returns (application operator [expression]) machine (value.split.map half) after := by
  obtain ⟨fuel, h⟩ := h
  refine ⟨fuel + 1, ?_⟩
  rw [eval_application hcount, hrun]
  refine (Action.bind_of_done h).trans ?_
  cases value.split <;> rfl

theorem returns_car (h : Returns expression machine (.ok value) after) :
    Returns (application .car [expression]) machine (value.split.map (·.1)) after :=
  returns_half rfl (fun _ => rfl) h

theorem returns_cdr (h : Returns expression machine (.ok value) after) :
    Returns (application .cdr [expression]) machine (value.split.map (·.2)) after :=
  returns_half rfl (fun _ => rfl) h

/-- A well-formed expression whose value is a pair has a tail that ends well, if it
finds only well-formed values bound. -/
theorem Returns.terminal_eq {head tail : Value}
    (h : Returns expression machine (.ok (.pair head tail)) after)
    (hexpression : expression.WellFormed)
    (hbound : machine.environment.Every Value.WellFormed) : tail.terminal = .empty := by
  have hvalue := (wellFormedDiscipline.of_returns closed_wellFormed hexpression hbound h).1
  obtain ⟨-, hlist, htail⟩ := hvalue _ rfl
  exact htail.terminal_eq hlist

end

theorem wellFormed_application {operator : Operator} {operands : List Value}
    (h : ∀ operand ∈ operands, operand.WellFormed) :
    (application operator operands).WellFormed := by
  rw [application, Value.wellFormed_iff]
  refine ⟨fun _ => Value.terminal_list operands, ?_⟩
  simp only [Value.elements, Value.elements_list, List.forall_mem_cons]
  exact ⟨trivial, h⟩

/-! ## What was put together -/

/-- Where a pair has been put together, `car` and `cdr` take it apart again if its tail
ends in the empty list, and otherwise they fail; both leave what `cons` has left. The
tail does end so if there are only well-formed values about. -/
theorem returns_halves_of_cons {first second head tail : Value} {machine after : Machine}
    (h : Returns (application .cons [first, second]) machine (.ok (.pair head tail)) after) :
    Returns (application .car [application .cons [first, second]]) machine
      (if tail.terminal = .empty then .ok head else .error .malformedList) after ∧
    Returns (application .cdr [application .cons [first, second]]) machine
      (if tail.terminal = .empty then .ok tail else .error .malformedList) after ∧
    (first.WellFormed → second.WellFormed → machine.environment.Every Value.WellFormed →
      tail.terminal = .empty) := by
  have hcar := returns_car h
  have hcdr := returns_cdr h
  rw [Value.split_pair, apply_ite (Except.map _)] at hcar hcdr
  refine ⟨hcar, hcdr, fun hfirst hsecond hbound => ?_⟩
  exact h.terminal_eq (wellFormed_application (by simp [hfirst, hsecond])) hbound

/-- `(cons (define x 1) (quote (2)))` is taken apart with `x` bound once. Nothing in it is
malformed, and so the tail ends well. -/
theorem returns_halves_of_cons_define :
    Returns (application .car [application .cons
        [application .define [.symbol "x", .int 1], application .quote [.list [.int 2]]]])
      ⟨.empty, .unbounded⟩ (.ok .empty) ⟨⟨NameMap.empty.insert "x" (.int 1)⟩, .unbounded⟩ ∧
    Returns (application .cdr [application .cons
        [application .define [.symbol "x", .int 1], application .quote [.list [.int 2]]]])
      ⟨.empty, .unbounded⟩ (.ok (.list [.int 2]))
      ⟨⟨NameMap.empty.insert "x" (.int 1)⟩, .unbounded⟩ ∧
    (Value.list [.int 2]).terminal = .empty := by
  have hcons : Returns (application .cons
        [application .define [.symbol "x", .int 1], application .quote [.list [.int 2]]])
      ⟨.empty, .unbounded⟩ (.ok (.pair .empty (.list [.int 2])))
      ⟨⟨NameMap.empty.insert "x" (.int 1)⟩, .unbounded⟩ :=
    ⟨3, rfl⟩
  obtain ⟨hcar, hcdr, hwellFormed⟩ := returns_halves_of_cons hcons
  have hend : (Value.list [.int 2]).terminal = .empty :=
    hwellFormed (by decide) (by decide) (Environment.every_empty _)
  rw [if_pos hend] at hcar hcdr
  exact ⟨hcar, hcdr, hend⟩

/-- `(cons 1 (quote (2 . 3)))` is a pair, and `car` does not give its `1` back. -/
theorem returns_car_of_dotted :
    Returns (application .cons [.int 1, application .quote [.pair (.int 2) (.int 3)]])
      ⟨.empty, .unbounded⟩ (.ok (.pair (.int 1) (.pair (.int 2) (.int 3))))
      ⟨.empty, .unbounded⟩ ∧
    Returns (application .car
        [application .cons [.int 1, application .quote [.pair (.int 2) (.int 3)]]])
      ⟨.empty, .unbounded⟩ (.error .malformedList) ⟨.empty, .unbounded⟩ ∧
    ¬ Returns (application .car
        [application .cons [.int 1, application .quote [.pair (.int 2) (.int 3)]]])
      ⟨.empty, .unbounded⟩ (.ok (.int 1)) ⟨.empty, .unbounded⟩ := by
  have hcar : Returns (application .car
        [application .cons [.int 1, application .quote [.pair (.int 2) (.int 3)]]])
      ⟨.empty, .unbounded⟩ (.error .malformedList) ⟨.empty, .unbounded⟩ := ⟨3, rfl⟩
  refine ⟨⟨2, rfl⟩, hcar, fun hone => ?_⟩
  exact nomatch (returns_unique hcar hone).1

/-! ## What was quoted -/

/-- An expression whose value is a given one. -/
def quoted (value : Value) : Value :=
  application .quote [value]

theorem returns_quoted (value : Value) (machine : Machine) :
    Returns (quoted value) machine (.ok value) machine := by
  refine ⟨1, ?_⟩
  rw [quoted, eval_application rfl]
  rfl

/-- An operator that is after one half of a quoted value succeeds if the value can be
split. -/
theorem exists_returns_half_iff {operator : Operator} {half : Value × Value → Value}
    {value : Value} {machine : Machine}
    (h : Returns (application operator [quoted value]) machine (value.split.map half) machine) :
    (∃ result after, Returns (application operator [quoted value]) machine (.ok result) after) ↔
      ∃ halves, value.split = .ok halves := by
  constructor
  · intro ⟨result, after, hresult⟩
    have hsplit := (returns_unique h hresult).1
    cases hvalue : value.split with
    | ok halves => exact ⟨halves, rfl⟩
    | error error =>
        rw [hvalue] at hsplit
        cases hsplit
  · intro ⟨halves, hvalue⟩
    rw [hvalue] at h
    exact ⟨half halves, machine, h⟩

theorem returns_cons {first second head tail : Value} {before middle after : Machine}
    (hsecond : Returns second before (.ok tail) middle) (hlist : tail.isList = true)
    (hfirst : Returns first middle (.ok head) after) :
    Returns (application .cons [first, second]) before (.ok (.pair head tail)) after := by
  obtain ⟨fuel, hsecond⟩ := hsecond
  obtain ⟨more, hfirst⟩ := hfirst
  refine ⟨max fuel more + 1, ?_⟩
  rw [eval_application rfl]
  refine (Action.bind_of_done (eval_mono (Nat.le_max_left fuel more) hsecond)).trans ?_
  rw [if_pos hlist]
  exact Action.bind_of_done (eval_mono (Nat.le_max_right fuel more) hfirst)

/-- A quoted value has both halves or neither. It has them if it is a list with an element
in it, and then `cons` makes the same list of them. -/
theorem returns_halves_of_quote (value : Value) (machine : Machine) :
    ((∃ head after, Returns (application .car [quoted value]) machine (.ok head) after) ↔
      ∃ tail after, Returns (application .cdr [quoted value]) machine (.ok tail) after) ∧
    ((∃ head after, Returns (application .car [quoted value]) machine (.ok head) after) ↔
      value.kind = .pair ∧ ∃ count, value.length = .ok count) ∧
    (value.kind = .pair → value.terminal ≠ .empty →
      Returns (application .car [quoted value]) machine (.error .malformedList) machine ∧
      Returns (application .cdr [quoted value]) machine (.error .malformedList) machine) ∧
    (value.kind ≠ .pair →
      Returns (application .car [quoted value]) machine
        (.error (.typeMismatch .pair value.kind)) machine ∧
      Returns (application .cdr [quoted value]) machine
        (.error (.typeMismatch .pair value.kind)) machine) ∧
    ∀ head tail after later,
      Returns (application .car [quoted value]) machine (.ok head) after →
      Returns (application .cdr [quoted value]) machine (.ok tail) later →
      Returns (application .cons
          [application .car [quoted value], application .cdr [quoted value]])
        machine (.ok value) machine ∧
      ∃ count, tail.length = .ok count ∧ value.length = .ok (count + 1) := by
  have hcar := returns_car (returns_quoted value machine)
  have hcdr := returns_cdr (returns_quoted value machine)
  have hhead := exists_returns_half_iff hcar
  have htail := exists_returns_half_iff hcdr
  refine ⟨hhead.trans htail.symm, hhead.trans Value.exists_split_iff, ?_, ?_, ?_⟩
  · intro hkind hend
    rw [Value.split_of_terminal_ne hkind hend] at hcar hcdr
    exact ⟨hcar, hcdr⟩
  · intro hkind
    rw [Value.split_of_kind_ne hkind] at hcar hcdr
    exact ⟨hcar, hcdr⟩
  · intro head tail after later hfirst hsecond
    obtain ⟨⟨first, rest⟩, hsplit⟩ := hhead.1 ⟨head, after, hfirst⟩
    obtain ⟨rfl, hend⟩ := Value.split_eq_ok_iff.1 hsplit
    rw [hsplit] at hcar hcdr
    obtain rfl := Except.ok.inj (returns_unique hcdr hsecond).1
    refine ⟨returns_cons hcdr (Value.isList_of_terminal_eq hend) hcar, ?_⟩
    obtain ⟨count, hcount⟩ := Value.exists_length_iff.2 hend
    refine ⟨count, hcount, ?_⟩
    rw [Value.length_pair, hcount]
    rfl

/-- `(1 (2 . 3))` is put together again although its last element ends badly, `(1 . 2)`
cannot be split for its end, and `()` for its kind. -/
theorem returns_halves_of_quote_nested :
    Returns (application .cons
        [application .car [quoted (.list [.int 1, .pair (.int 2) (.int 3)])],
          application .cdr [quoted (.list [.int 1, .pair (.int 2) (.int 3)])]])
      ⟨.empty, .unbounded⟩ (.ok (.list [.int 1, .pair (.int 2) (.int 3)])) ⟨.empty, .unbounded⟩ ∧
    Returns (application .car [quoted (.pair (.int 1) (.int 2))]) ⟨.empty, .unbounded⟩
      (.error .malformedList) ⟨.empty, .unbounded⟩ ∧
    Returns (application .cdr [quoted .empty]) ⟨.empty, .unbounded⟩
      (.error (.typeMismatch .pair .empty)) ⟨.empty, .unbounded⟩ := by
  have hfirst : Returns (application .car [quoted (.list [.int 1, .pair (.int 2) (.int 3)])])
      ⟨.empty, .unbounded⟩ (.ok (.int 1)) ⟨.empty, .unbounded⟩ := ⟨2, rfl⟩
  have hrest : Returns (application .cdr [quoted (.list [.int 1, .pair (.int 2) (.int 3)])])
      ⟨.empty, .unbounded⟩ (.ok (.list [.pair (.int 2) (.int 3)])) ⟨.empty, .unbounded⟩ :=
    ⟨2, rfl⟩
  obtain ⟨-, -, -, -, hboth⟩ :=
    returns_halves_of_quote (.list [.int 1, .pair (.int 2) (.int 3)]) ⟨.empty, .unbounded⟩
  obtain ⟨-, -, hdotted, -⟩ :=
    returns_halves_of_quote (.pair (.int 1) (.int 2)) ⟨.empty, .unbounded⟩
  obtain ⟨-, -, -, hempty, -⟩ := returns_halves_of_quote .empty ⟨.empty, .unbounded⟩
  exact ⟨(hboth _ _ _ _ hfirst hrest).1, (hdotted rfl (by decide)).1, (hempty (by decide)).2⟩

end Sexpr

import Sexpr.Value.Chain

/-!
# Well-formed values, and who can tell

A value is well-formed when none of the chains in it ends badly, at any depth.
Three consumers of lists look at the ends of chains: the collector of operands,
the splitter of a list into its halves, and the writer of canonical text. The
first two look at one chain, the writer at all of them; each of them refuses
with `malformedList` and with nothing else, and only a value that is not
well-formed is refused. The writer refuses every such value, which is why
well-formedness is the condition it goes by. What it has written by then has a
module of its own; this one is about the other two.
-/

namespace Sexpr

namespace Value

/-- Every chain in a value ends in the empty list: the chain that the value is,
and the chains that its elements are, and so on inwards. -/
def WellFormed : Value → Prop
  | pair car cdr => car.WellFormed ∧ cdr.isList = true ∧ cdr.WellFormed
  | _ => True

instance decidableWellFormed : (value : Value) → Decidable value.WellFormed
  | int _ | real _ | symbol _ | empty => .isTrue trivial
  | pair car cdr =>
      have := decidableWellFormed car
      have := decidableWellFormed cdr
      inferInstanceAs (Decidable (car.WellFormed ∧ cdr.isList = true ∧ cdr.WellFormed))

/-- A well-formed value that may stand where a list may ends in the empty
list. -/
theorem WellFormed.terminal_eq {value : Value} (h : value.WellFormed)
    (hlist : value.isList = true) : value.terminal = empty := by
  induction value with
  | pair car cdr _ ih => exact ih h.2.2 h.2.1
  | empty => rfl
  | int | real | symbol => simp [isList] at hlist

theorem isList_of_terminal_eq {value : Value} (h : value.terminal = empty) :
    value.isList = true := by
  cases value with
  | pair | empty => rfl
  | int | real | symbol => simp [terminal] at h

/-- Well-formedness read along the chain: its end, and each of its elements. -/
theorem wellFormed_iff {value : Value} :
    value.WellFormed ↔
      (value.kind = .pair → value.terminal = empty) ∧
        ∀ element ∈ value.elements, element.WellFormed := by
  induction value with
  | pair car cdr _ ih =>
      simp only [WellFormed, kind, terminal, elements, List.forall_mem_cons, forall_const, ih]
      constructor
      · rintro ⟨hcar, hlist, hend, helements⟩
        exact ⟨(ih.2 ⟨hend, helements⟩).terminal_eq hlist, hcar, helements⟩
      · rintro ⟨hend, hcar, helements⟩
        exact ⟨hcar, isList_of_terminal_eq hend, fun _ => hend, helements⟩
  | int | real | symbol | empty => simp [WellFormed, kind, elements]

/-! ## Collecting and splitting -/

theorem collect_eq (value : Value) (collected : List Value) :
    value.collect collected =
      if value.terminal = empty then .ok (collected.reverse ++ value.elements)
      else .error .malformedList := by
  induction value generalizing collected with
  | pair car cdr _ ih =>
      rw [collect, ih, elements, List.reverse_cons, List.append_assoc, List.singleton_append]
      rfl
  | empty => simp [collect, terminal, elements]
  | int | real | symbol => simp [collect, terminal]

/-- The elements of a chain are its list as soon as the chain ends well. -/
theorem toList_eq (value : Value) :
    value.toList =
      if value.terminal = empty then .ok value.elements else .error .malformedList := by
  simp [toList, collect_eq]

theorem lengthFrom_eq (value : Value) (counted : Nat) :
    value.lengthFrom counted =
      if value.terminal = empty then .ok (counted + value.elements.length)
      else .error .malformedList := by
  induction value generalizing counted with
  | pair car cdr _ ih =>
      rw [lengthFrom, ih, elements, List.length_cons, Nat.add_assoc, Nat.add_comm 1]
      rfl
  | empty => simp [lengthFrom, terminal, elements]
  | int | real | symbol => simp [lengthFrom, terminal]

theorem length_eq (value : Value) :
    value.length =
      if value.terminal = empty then .ok value.elements.length
      else .error .malformedList := by
  simp [length, lengthFrom_eq]

/-- Splitting looks at the kind first and at the end of the chain only then. -/
theorem split_eq (value : Value) :
    value.split =
      match value with
      | pair car cdr =>
          if cdr.terminal = empty then .ok (car, cdr) else .error .malformedList
      | other => .error (other.mismatch .pair) := by
  cases value with
  | pair car cdr =>
      simp only [split, length_eq]
      by_cases hend : cdr.terminal = empty
      · simp only [hend, if_true]
      · simp only [hend, if_false]
  | int | real | symbol | empty => rfl

end Value

end Sexpr

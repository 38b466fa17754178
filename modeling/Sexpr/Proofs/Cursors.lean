import Mathlib.Logic.Function.Iterate
import Sexpr.Proofs.Application

/-!
# What a cursor gives

A cursor is asked again and again, and answers from nothing but the value it has not visited
yet. All that it will ever give is laid down by the value it begins with: every element in
its turn, then one error if the chain ends badly, and then nothing however often it is asked
(`next_advance`). It can give the error once only because it lets go of what the chain ends
in. Until then, what it has not visited is the value without the elements that it has given.

Those who count a list or collect operands do not ask a cursor. They walk down the chain on
their own and carry along what they want to have at its end. That they agree with a cursor is
said twice: by what they make of a chain with these elements and this end, and by what they
would make of the answers if they did ask a cursor until it has no more of them.
-/

namespace Sexpr

namespace Value

theorem kind_terminal_ne (value : Value) : value.terminal.kind ≠ .pair := by
  induction value with
  | pair _ _ _ ih => exact ih
  | int | real | symbol | empty => exact nofun

/-- A list is made of a value's elements, so it is the value if that is a list. -/
theorem list_elements_eq_iff {value : Value} :
    list value.elements = value ↔ value.terminal = empty := by
  constructor
  · intro h
    rw [← h]
    exact terminal_list _
  · exact list_elements

/-- What there is to be said of a chain: its elements, and that it ends badly if it does. -/
def answers (value : Value) : List (Except Error Value) :=
  value.elements.map .ok ++ if value.terminal = empty then [] else [.error .malformedList]

theorem answers_pair (car cdr : Value) : (pair car cdr).answers = .ok car :: cdr.answers := rfl

theorem getElem?_answers_of_lt {value : Value} {i : Nat} (hi : i < value.elements.length) :
    value.answers[i]? = some (.ok value.elements[i]) := by
  rw [answers, List.getElem?_append_left (by rwa [List.length_map]), List.getElem?_map,
    List.getElem?_eq_getElem hi]
  rfl

theorem getElem?_answers_length (value : Value) :
    value.answers[value.elements.length]? =
      if value.terminal = empty then none else some (.error .malformedList) := by
  rw [answers, List.getElem?_append_right (Nat.le_of_eq (List.length_map _)),
    List.length_map, Nat.sub_self]
  split <;> rfl

theorem getElem?_answers_of_gt {value : Value} {i : Nat} (hi : value.elements.length < i) :
    value.answers[i]? = none := by
  rw [List.getElem?_eq_none_iff, answers, List.length_append, List.length_map]
  split
  · exact Nat.le_of_lt hi
  · exact hi

/-! ## Consumers -/

/-- Counting goes through the answers and stops at the first error. -/
theorem lengthFrom_eq_foldlM (value : Value) (counted : Nat) :
    value.lengthFrom counted =
      value.answers.foldlM (fun counted answer => answer.map fun _ => counted + 1) counted := by
  induction value generalizing counted with
  | pair car cdr _ ih => exact ih (counted + 1)
  | int | real | symbol | empty => rfl

/-- The operands are the answers if none of them is an error, and otherwise the first error. -/
theorem toList_eq_mapM (value : Value) : value.toList = value.answers.mapM id := by
  rw [toList_eq]
  induction value with
  | pair car cdr _ ih =>
      rw [answers_pair, List.mapM_cons, ← ih, terminal, elements]
      split <;> rfl
  | int | real | symbol | empty => rfl

end Value

/-! ## Step by step -/

namespace Cursor

/-- Where a cursor is after so many steps. -/
def advance (count : Nat) (cursor : Cursor) : Cursor :=
  (fun cursor => cursor.next.2)^[count] cursor

theorem steps_eq (count : Nat) (cursor : Cursor) :
    cursor.steps count = (List.range count).map fun i => (cursor.advance i).next := by
  induction count generalizing cursor with
  | zero => rfl
  | succ count ih =>
      rw [steps, ih, List.range_succ_eq_map, List.map_cons, List.map_map]
      rfl

/-- Before the empty list a cursor stays where it is. -/
theorem advance_empty (count : Nat) : (start .empty).advance count = start .empty := by
  induction count with
  | zero => rfl
  | succ count ih => exact ih

/-- Each step gives the next one of the answers. -/
theorem next_advance (value : Value) (i : Nat) :
    ((start value).advance i).next.1 = value.answers[i]? := by
  induction value generalizing i with
  | pair car cdr _ ih =>
      cases i with
      | zero => rfl
      | succ i => exact ih i
  | int | real | symbol | empty =>
      cases i with
      | zero => rfl
      | succ i =>
          -- What there was to say has been said, and the cursor stands before the empty list.
          rw [Value.getElem?_answers_of_gt (Nat.succ_pos i)]
          exact congrArg (fun cursor => cursor.next.1) (advance_empty i)

/-- Each step takes one element off as long as there is one. -/
theorem rest_advance {value : Value} {i : Nat} (hi : i ≤ value.elements.length) :
    ((start value).advance i).rest = .chain (value.elements.drop i) value.terminal := by
  induction value generalizing i with
  | pair car cdr _ ih =>
      cases i with
      | zero => exact (Value.chain_elements (.pair car cdr)).symm
      | succ i => exact ih (Nat.le_of_succ_le_succ hi)
  | int | real | symbol | empty =>
      obtain rfl := Nat.le_zero.1 hi
      rfl

/-- All that is given in so many steps. -/
def given (count : Nat) (cursor : Cursor) : List (Except Error Value) :=
  (cursor.steps count).filterMap (·.1)

theorem given_empty (count : Nat) : (start .empty).given count = [] := by
  induction count with
  | zero => rfl
  | succ count ih => exact ih

/-- One step more than there are elements is enough to be given everything. -/
theorem given_eq {value : Value} {count : Nat} (h : value.elements.length < count) :
    (start value).given count = value.answers := by
  induction value generalizing count with
  | pair car cdr _ ih =>
      cases count with
      | zero => cases h
      | succ count => exact congrArg (Except.ok car :: ·) (ih (Nat.lt_of_succ_lt_succ h))
  | empty => exact given_empty count
  | int | real | symbol =>
      cases count with
      | zero => cases h
      | succ count => exact congrArg (Except.error Error.malformedList :: ·) (given_empty count)

/-- How a cursor goes down a value that has these elements and ends in `last`. -/
structure GoesDown (value : Value) (elements : List Value) (last : Value) : Prop where
  /-- There are no more elements in what the chain ends in. -/
  parts : value = .chain elements last ∧ last.kind ≠ .pair
  steps : ∀ count, (start value).steps count =
    (List.range count).map fun i => ((start value).advance i).next
  element : ∀ (i : Nat) (hi : i < elements.length),
    ((start value).advance i).next.1 = some (.ok elements[i])
  ending : ((start value).advance elements.length).next.1 =
    if last = .empty then none else some (.error .malformedList)
  afterwards : ∀ i, elements.length < i → ((start value).advance i).next.1 = none
  rest : ∀ i ≤ elements.length, ((start value).advance i).rest = .chain (elements.drop i) last

theorem goesDown (value : Value) : GoesDown value value.elements value.terminal where
  parts := ⟨value.chain_elements.symm, value.kind_terminal_ne⟩
  steps count := steps_eq count (start value)
  element i hi := by rw [next_advance, Value.getElem?_answers_of_lt hi]
  ending := by rw [next_advance, Value.getElem?_answers_length]
  afterwards i hi := by rw [next_advance, Value.getElem?_answers_of_gt hi]
  rest _ hi := rest_advance hi

end Cursor

/-- A cursor gives the elements of a value in order, then one error if the chain does not end
in the empty list, and nothing from then on. As long as it gives elements, what is left is
the value without them. The length of the value, the operands in it and the list of its
elements are there if the chain ends in the empty list. They are what would be made of the
answers of a cursor, which all come if it is asked more often than there are elements. -/
theorem cursor_and_consumers_agree (value : Value) :
    Cursor.GoesDown value value.elements value.terminal ∧
    value.length =
      (if value.terminal = .empty then .ok value.elements.length else .error .malformedList) ∧
    (∀ entry : OperatorEntry, entry.operands value =
      if value.terminal = .empty then
        if entry.arity.accepts value.elements.length then .ok value.elements
        else .error (.arityMismatch entry.operator.name entry.arity value.elements.length)
      else .error .malformedList) ∧
    (Value.list value.elements = value ↔ value.terminal = .empty) ∧
    ∀ count, value.elements.length < count →
      value.length = ((Cursor.start value).given count).foldlM
        (fun counted answer => answer.map fun _ => counted + 1) 0 ∧
      value.toList = ((Cursor.start value).given count).mapM id := by
  refine ⟨Cursor.goesDown value, value.length_eq, fun entry => entry.operands_eq value,
    Value.list_elements_eq_iff, fun count hcount => ?_⟩
  rw [Cursor.given_eq hcount]
  exact ⟨value.lengthFrom_eq_foldlM 0, value.toList_eq_mapM⟩

/-- `(a b . c)`, and a cursor on it that is asked five times. -/
theorem cursor_and_consumers_agree_dotted :
    [Value.symbol "a", .symbol "b"].length < 5 ∧
    (.error .malformedList : Except Error Nat) =
      ((Cursor.start (.chain [.symbol "a", .symbol "b"] (.symbol "c"))).given 5).foldlM
        (fun counted answer => answer.map fun _ => counted + 1) 0 ∧
    (.error .malformedList : Except Error (List Value)) =
      ((Cursor.start (.chain [.symbol "a", .symbol "b"] (.symbol "c"))).given 5).mapM id := by
  have hcount : [Value.symbol "a", .symbol "b"].length < 5 := by decide
  obtain ⟨hlength, hlist⟩ := (cursor_and_consumers_agree
    (.chain [.symbol "a", .symbol "b"] (.symbol "c"))).2.2.2.2 5 hcount
  exact ⟨hcount, hlength, hlist⟩

end Sexpr

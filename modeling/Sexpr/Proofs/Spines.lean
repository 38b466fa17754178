import Sexpr.Proofs.FloatEquality
import Sexpr.Proofs.Quotation
import Sexpr.Proofs.ValueReading
import Sexpr.Value.Tagged

/-!
# Walking a chain

A value is copied, compared and spelled out by walking down its chain, so that only its
elements have to be entered and a long list costs no more than a short one in depth. What
is still to be done at the end of the chain is carried along: the elements that have been
copied, the number of parentheses that are open.

None of that can be seen in what comes of it. A copy is the value (`copy_eq`), and the
tagged text of a pair has the texts of its two halves in it, the second one no less than
the first (`tagged_pair`). Values compare equal if they are built alike and their atoms
compare equal (`beq_iff_same`). So the comparison inherits from that of floats that it is
symmetric and transitive, and that a value is equal to itself unless there is a real inside
that is no number.
-/

namespace Sexpr

namespace Value

variable {a b c : Value}

/-! ## Equality -/

/-- Values of the same shape, with the same integers and names, and with reals that compare
equal as floats. -/
inductive Same : Value → Value → Prop where
  | int (n : Int64) : Same (int n) (int n)
  | real {x y : Float} (h : (x == y) = true) : Same (real x) (real y)
  | symbol (name : String) : Same (symbol name) (symbol name)
  | pair {a b c d : Value} (hcar : Same a c) (hcdr : Same b d) : Same (pair a b) (pair c d)
  | empty : Same empty empty

theorem same_of_beq (h : a.beq b = true) : Same a b := by
  induction a generalizing b with
  | int m =>
      cases b with
      | int n =>
          obtain rfl : m = n := eq_of_beq h
          exact .int m
      | real | symbol | pair | empty => cases h
  | real x =>
      cases b with
      | real y => exact .real h
      | int | symbol | pair | empty => cases h
  | symbol name =>
      cases b with
      | symbol other =>
          obtain rfl : name = other := eq_of_beq h
          exact .symbol name
      | int | real | pair | empty => cases h
  | pair car cdr ihcar ihcdr =>
      cases b with
      | pair other rest =>
          obtain ⟨hcar, hcdr⟩ := Bool.and_eq_true_iff.1 h
          exact .pair (ihcar hcar) (ihcdr hcdr)
      | int | real | symbol | empty => cases h
  | empty =>
      cases b with
      | empty => exact .empty
      | int | real | symbol | pair => cases h

theorem Same.beq (h : Same a b) : a.beq b = true := by
  induction h with
  | int n => exact beq_self_eq_true n
  | real h => exact h
  | symbol name => exact beq_self_eq_true name
  | pair _ _ ihcar ihcdr => exact Bool.and_eq_true_iff.2 ⟨ihcar, ihcdr⟩
  | empty => rfl

theorem beq_iff_same : a.beq b = true ↔ Same a b :=
  ⟨same_of_beq, Same.beq⟩

theorem Same.symm (h : Same a b) : Same b a := by
  induction h with
  | int n => exact .int n
  | real h => exact .real (Binary64.beq_symm h)
  | symbol name => exact .symbol name
  | pair _ _ ihcar ihcdr => exact .pair ihcar ihcdr
  | empty => exact .empty

theorem Same.trans (h : Same a b) (k : Same b c) : Same a c := by
  induction h generalizing c with
  | int | symbol | empty => exact k
  | real h =>
      cases k with
      | real k => exact .real (Binary64.beq_trans h k)
  | pair _ _ ihcar ihcdr =>
      cases k with
      | pair kcar kcdr => exact .pair (ihcar kcar) (ihcdr kcdr)

/-- A value is the same as itself if all its reals are numbers. -/
theorem same_self_iff : Same a a ↔ ∀ x ∈ a.reals, x.isNaN = false := by
  induction a with
  | int n => exact iff_of_true (.int n) (List.forall_mem_nil _)
  | real x =>
      rw [reals, List.forall_mem_singleton, ← Binary64.beq_self_iff]
      constructor
      · intro h
        cases h with
        | real h => exact h
      · intro h
        exact .real h
  | symbol name => exact iff_of_true (.symbol name) (List.forall_mem_nil _)
  | pair car cdr ihcar ihcdr =>
      rw [reals, List.forall_mem_append, ← ihcar, ← ihcdr]
      constructor
      · intro h
        cases h with
        | pair hcar hcdr => exact ⟨hcar, hcdr⟩
      · rintro ⟨hcar, hcdr⟩
        exact .pair hcar hcdr
  | empty => exact iff_of_true .empty (List.forall_mem_nil _)

/-! ## Tagged text -/

/-- So many closing parentheses. -/
def closing (count : Nat) : String :=
  String.ofList (List.replicate count ')')

theorem closing_zero : closing 0 = "" := rfl

theorem closing_succ (count : Nat) : closing (count + 1) = ")" ++ closing count := by
  rw [closing, List.replicate_succ, String.ofList_cons]
  rfl

theorem pushn_eq (text : String) (count : Nat) : text.pushn ')' count = text ++ closing count := by
  induction count with
  | zero => exact String.append_empty.symm
  | succ count ih =>
      show (text.pushn ')' count).push ')' = _
      rw [ih, String.push_eq_append, String.append_assoc, closing, closing, List.replicate_succ',
        String.ofList_append]
      rfl

theorem taggedOnto_of_atom {value : Value} (h : value.kind ≠ .pair) (text : String)
    (opened : Nat) : value.taggedOnto text opened = text ++ (value.tagged ++ closing opened) := by
  cases value with
  | pair => exact absurd rfl h
  | int | real | symbol | empty =>
      simp only [tagged, taggedOnto, pushn_eq, closing_zero, String.append_empty,
        String.empty_append, String.append_assoc]

/-- What is written of a value depends neither on what stands before it nor on how much is
still to be closed behind it. -/
theorem exists_taggedOnto_eq (value : Value) :
    ∃ written, ∀ text opened,
      value.taggedOnto text opened = text ++ (written ++ closing opened) := by
  induction value with
  | int | real | symbol | empty => exact ⟨_, taggedOnto_of_atom nofun⟩
  | pair car cdr ihcar ihcdr =>
      obtain ⟨first, hfirst⟩ := ihcar
      obtain ⟨second, hsecond⟩ := ihcdr
      refine ⟨"Pair(" ++ (first ++ (", " ++ (second ++ ")"))), fun text opened => ?_⟩
      -- The parenthesis that the pair has opened is the first to be closed.
      rw [taggedOnto, hsecond, hfirst, closing_zero, closing_succ]
      simp only [String.append_empty, String.append_assoc]

theorem taggedOnto_eq (value : Value) (text : String) (opened : Nat) :
    value.taggedOnto text opened = text ++ (value.tagged ++ closing opened) := by
  obtain ⟨written, hwritten⟩ := exists_taggedOnto_eq value
  rw [tagged, hwritten, hwritten, closing_zero, String.append_empty, String.empty_append]

theorem tagged_pair (car cdr : Value) :
    (pair car cdr).tagged = "Pair(" ++ car.tagged ++ ", " ++ cdr.tagged ++ ")" := by
  rw [tagged, taggedOnto, taggedOnto_eq cdr, taggedOnto_eq car, closing_succ, closing_zero]
  simp only [String.append_empty, String.empty_append, String.append_assoc]

/-! ## All three -/

/-- A copy of a value is the value, with the sign of every zero; a real that is no number is
copied as such, its sign and payload not being told apart. Values compare equal if and
only if they are the same but for reals that compare equal; the comparison is symmetric and
transitive, and a value is equal to its copy if and only if all its reals are numbers. The
tagged text of a pair is made of those of its halves. -/
theorem spines_structural (a b : Value) :
    a.copy = a ∧
    (a.beq b = true ↔ Same a b) ∧
    a.beq b = b.beq a ∧
    (∀ c, a.beq b = true → b.beq c = true → a.beq c = true) ∧
    (a.beq a.copy = true ↔ ∀ x ∈ a.reals, x.isNaN = false) ∧
    (pair a b).tagged = "Pair(" ++ a.tagged ++ ", " ++ b.tagged ++ ")" := by
  refine ⟨copy_eq a, beq_iff_same, ?_, fun c hab hbc => ?_, ?_, tagged_pair a b⟩
  · rw [Bool.eq_iff_iff, beq_iff_same, beq_iff_same]
    exact ⟨Same.symm, Same.symm⟩
  · exact beq_iff_same.2 ((beq_iff_same.1 hab).trans (beq_iff_same.1 hbc))
  · rw [copy_eq, beq_iff_same, same_self_iff]

/-- Values that differ in the sign of a zero. -/
theorem spines_structural_zeros :
    (pair (real 0.0) (symbol "x")).beq (pair (real (-0.0)) (symbol "x")) = true ∧
    (pair (real (-0.0)) (symbol "x")).beq (pair (real 0.0) (symbol "x")) = true ∧
    (pair (real 0.0) (symbol "x")).beq (pair (real 0.0) (symbol "x")) = true := by
  have hab : (pair (real 0.0) (symbol "x")).beq (pair (real (-0.0)) (symbol "x")) = true := by
    decide +kernel
  have hba : (pair (real (-0.0)) (symbol "x")).beq (pair (real 0.0) (symbol "x")) = true := by
    decide +kernel
  exact ⟨hab, hba, (spines_structural _ _).2.2.2.1 _ hab hba⟩

end Value

end Sexpr

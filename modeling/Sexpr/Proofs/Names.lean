import Sexpr.Operator.Table

/-!
# The table of operators says what the operators say

An operator is found in two ways: by walking the list of all operators, which
is how a name is kept from being bound, and by looking it up in the table,
which is how an application is dispatched. Both ways agree on every name, and
the table adds nothing to an operator but its own arity. So what is known of an
operator may be used of whatever an application dispatches to.
-/

namespace Sexpr

namespace Operator

/-- An operator is found by its own name and by no other. -/
theorem ofName?_eq_some_iff {symbol : String} {operator : Operator} :
    ofName? symbol = some operator ↔ operator.name = symbol := by
  constructor
  · intro h
    simpa using List.find?_some h
  · rintro rfl
    cases operator <;> rfl

end Operator

namespace NameMap

variable {α : Type}

/-- Putting entries in leaves a name alone that none of them has. -/
theorem find?_foldl_insert_of_forall_ne {name : String} {entries : List (String × α)}
    (h : ∀ entry ∈ entries, entry.1 ≠ name) (map : NameMap α) :
    (entries.foldl (fun map entry => map.insert entry.1 entry.2) map).find? name =
      map.find? name := by
  induction entries generalizing map with
  | nil => rfl
  | cons entry rest ih =>
      have hrest : ∀ entry ∈ rest, entry.1 ≠ name :=
        fun other hother => h other (List.mem_cons_of_mem _ hother)
      rw [List.foldl_cons, ih hrest, find?_insert_ne map (h entry List.mem_cons_self)]

end NameMap

/-- Dispatch finds exactly the operators, each under its name. -/
theorem OperatorTable.find?_standard (name : String) :
    OperatorTable.standard.find? name =
      (Operator.ofName? name).map fun operator => ⟨operator, operator.arity⟩ := by
  cases h : Operator.ofName? name with
  | some operator =>
      obtain rfl := Operator.ofName?_eq_some_iff.1 h
      cases operator <;> rfl
  | none =>
      refine NameMap.find?_foldl_insert_of_forall_ne (fun entry hentry heq => ?_) .empty
      obtain ⟨operator, -, rfl⟩ := List.mem_map.1 hentry
      simp [Operator.ofName?_eq_some_iff.2 heq] at h

theorem OperatorTable.contains_standard (name : String) :
    OperatorTable.standard.contains name = (Operator.ofName? name).isSome := by
  rw [NameMap.contains, OperatorTable.find?_standard, Option.isSome_map]

/-- What an application dispatches to is an operator of that name, under its
own arity. -/
theorem OperatorTable.find?_standard_eq_some {name : String} {entry : OperatorEntry}
    (h : OperatorTable.standard.find? name = some entry) :
    entry.operator.name = name ∧ entry.arity = entry.operator.arity := by
  rw [OperatorTable.find?_standard, Option.map_eq_some_iff] at h
  obtain ⟨operator, hname, rfl⟩ := h
  exact ⟨Operator.ofName?_eq_some_iff.1 hname, rfl⟩

end Sexpr

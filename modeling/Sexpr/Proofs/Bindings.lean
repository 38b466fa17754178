import Sexpr.Environment

/-!
# What a binding changes

A name that is bound has its new value from then on, and no other name notices.
A name that may not be bound is turned away, and nothing is changed. So a
property that every bound value has is kept by a binding whose value has it, and
two environments that agree on some names agree on them after the same binding.
-/

namespace Sexpr

namespace Environment

section

variable {environment extended : Environment} {name : String} {value : Value}

theorem define_of_free (h : Operator.ofName? name = none) (environment : Environment)
    (value : Value) :
    environment.define name value = (.ok (), ⟨environment.bindings.insert name value⟩) := by
  simp only [define, checkDefinable, h]

theorem define_of_reserved {operator : Operator} (h : Operator.ofName? name = some operator)
    (environment : Environment) (value : Value) :
    environment.define name value = (.error (.reservedName name), environment) := by
  simp only [define, checkDefinable, h]

/-- A binding that succeeds is of a name that no operator has. -/
theorem define_eq_ok (h : environment.define name value = (.ok (), extended)) :
    Operator.ofName? name = none ∧ extended = ⟨environment.bindings.insert name value⟩ := by
  cases hname : Operator.ofName? name with
  | some operator =>
      rw [define_of_reserved hname] at h
      cases h
  | none =>
      rw [define_of_free hname] at h
      cases h
      exact ⟨rfl, rfl⟩

/-- A binding that fails has changed nothing. -/
theorem eq_of_define_error {error : Error}
    (h : environment.define name value = (.error error, extended)) : extended = environment := by
  cases hname : Operator.ofName? name with
  | some operator =>
      rw [define_of_reserved hname] at h
      cases h
      rfl
  | none =>
      rw [define_of_free hname] at h
      cases h

theorem lookup_define (h : environment.define name value = (.ok (), extended)) (other : String) :
    extended.lookup other = if other = name then .ok value else environment.lookup other := by
  obtain ⟨-, rfl⟩ := define_eq_ok h
  rw [lookup]
  by_cases heq : other = name
  · rw [heq, NameMap.find?_insert_self, if_pos rfl]
  · rw [NameMap.find?_insert_ne _ (Ne.symm heq), if_neg heq, lookup]

theorem lookup_eq_error_iff {error : Error} :
    environment.lookup name = .error error ↔
      error = .unboundSymbol name ∧ environment.contains name = false := by
  rw [lookup, contains, NameMap.contains]
  cases environment.bindings.find? name with
  | some value => simp
  | none => simp [eq_comm]

/-- Binding a name binds no other, and leaves bound what was bound. -/
theorem contains_define (h : environment.define name value = (.ok (), extended))
    (other : String) :
    extended.contains other = true ↔ other = name ∨ environment.contains other = true := by
  obtain ⟨-, rfl⟩ := define_eq_ok h
  rw [contains, NameMap.contains]
  by_cases heq : other = name
  · rw [heq, NameMap.find?_insert_self]
    simp
  · rw [NameMap.find?_insert_ne _ (Ne.symm heq)]
    simp [heq, contains, NameMap.contains]

end

/-- Every bound value has a property. -/
def Every (P : Value → Prop) (environment : Environment) : Prop :=
  ∀ name value, environment.lookup name = .ok value → P value

theorem every_empty (P : Value → Prop) : empty.Every P :=
  fun _ _ h => nomatch h

/-- Looking a name up gives a value with the property, or no value at all. -/
theorem Every.lookup {P : Value → Prop} {environment : Environment} (h : environment.Every P)
    {name : String} {Blame : Error → Prop}
    (hblame : ∀ error, environment.lookup name = .error error → Blame error) :
    match environment.lookup name with
    | .ok value => P value
    | .error error => Blame error := by
  split
  · next value hvalue => exact h name value hvalue
  · next error herror => exact hblame error herror

theorem Every.define {P : Value → Prop} {environment extended : Environment} {name : String}
    {value : Value} (h : environment.Every P) (hvalue : P value)
    (hdefine : environment.define name value = (.ok (), extended)) : extended.Every P := by
  intro other found hfound
  rw [lookup_define hdefine] at hfound
  split at hfound
  · cases hfound
    exact hvalue
  · exact h other found hfound

end Environment

end Sexpr

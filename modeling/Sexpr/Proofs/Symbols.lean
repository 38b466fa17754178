import Mathlib.Data.Set.Defs
import Sexpr.Proofs.Correspondence

/-!
# The symbols in a value

Code and data are the same values, so what a value can do once it is evaluated
is a question of the symbols in it, quoted or not. No operator makes a symbol:
the values that mention no name outside of a set are closed under all of them,
and so are the values that do not mention one name in particular.
-/

namespace Sexpr

namespace Value

/-- A symbol of this name occurs somewhere in a value. -/
def Mentions (name : String) : Value → Prop
  | symbol other => other = name
  | pair car cdr => car.Mentions name ∨ cdr.Mentions name
  | _ => False

instance decidableMentions (name : String) : (value : Value) → Decidable (value.Mentions name)
  | int _ | real _ | empty => .isFalse id
  | symbol other => inferInstanceAs (Decidable (other = name))
  | pair car cdr =>
      have := decidableMentions name car
      have := decidableMentions name cdr
      inferInstanceAs (Decidable (car.Mentions name ∨ cdr.Mentions name))

/-- Every symbol in a value has its name in a set. -/
def Within (names : Set String) (value : Value) : Prop :=
  ∀ name, value.Mentions name → name ∈ names

@[simp] theorem within_int {names : Set String} (number : Int64) : (int number).Within names :=
  fun _ h => nomatch h

@[simp] theorem within_real {names : Set String} (number : Float) : (real number).Within names :=
  fun _ h => nomatch h

@[simp] theorem within_empty {names : Set String} : empty.Within names :=
  fun _ h => nomatch h

@[simp] theorem within_symbol {names : Set String} {name : String} :
    (symbol name).Within names ↔ name ∈ names :=
  ⟨fun h => h name rfl, fun h _ hname => hname ▸ h⟩

@[simp] theorem within_pair {names : Set String} {car cdr : Value} :
    (pair car cdr).Within names ↔ car.Within names ∧ cdr.Within names :=
  ⟨fun h => ⟨fun name hname => h name (.inl hname), fun name hname => h name (.inr hname)⟩,
    fun h name hname => hname.elim (h.1 name) (h.2 name)⟩

end Value

theorem closed_within (names : Set String) : Closed (Value.Within names) where
  int := Value.within_int
  real := Value.within_real
  empty := Value.within_empty
  pair hcar hcdr _ := Value.within_pair.2 ⟨hcar, hcdr⟩
  car h := (Value.within_pair.1 h).1
  cdr h := (Value.within_pair.1 h).2

theorem closed_not_mentions (name : String) : Closed fun value => ¬ value.Mentions name where
  int _ := id
  real _ := id
  empty := id
  pair hcar hcdr _ h := h.elim hcar hcdr
  car h hcar := h (.inl hcar)
  cdr h hcdr := h (.inr hcdr)

end Sexpr

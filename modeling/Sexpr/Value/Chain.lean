import Sexpr.Value.Basic

/-!
# Chains of pairs

Every value is a chain: the elements met on the way down its second halves, and
the terminal the way ends in, which is the value itself when it is no pair. A
chain is proper when its terminal is the empty list. Whoever consumes a list
walks this chain and must say what becomes of an improper one; all of them
answer `malformedList`, and none before it has come to the end.
-/

namespace Sexpr

namespace Value

/-- The elements of a chain, from its front. -/
def elements : Value → List Value
  | pair car cdr => car :: elements cdr
  | _ => []

/-- What a chain ends in. -/
def terminal : Value → Value
  | pair _ cdr => terminal cdr
  | atom => atom

/-- Counts on from `counted` to the end of a proper list. -/
def lengthFrom (counted : Nat) : Value → Except Error Nat
  | pair _ cdr => lengthFrom (counted + 1) cdr
  | empty => .ok counted
  | _ => .error .malformedList

def length (value : Value) : Except Error Nat :=
  lengthFrom 0 value

/-- Collects the elements of a proper list behind those in `collected`, which
holds the last one first. -/
def collect (collected : List Value) : Value → Except Error (List Value)
  | pair car cdr => collect (car :: collected) cdr
  | empty => .ok collected.reverse
  | _ => .error .malformedList

def toList (value : Value) : Except Error (List Value) :=
  collect [] value

/-- The two halves of a proper list that is not empty. The kind is looked at
before the end of the chain is. -/
def split : Value → Except Error (Value × Value)
  | pair car cdr =>
      match cdr.length with
      | .ok _ => .ok (car, cdr)
      | .error error => .error error
  | other => .error (other.mismatch .pair)

end Value

/-! ## Walking step by step -/

/-- A place on the way down a chain. -/
structure Cursor where
  /-- What has not been visited yet. -/
  rest : Value

namespace Cursor

/-- A cursor that has visited nothing. -/
def start (value : Value) : Cursor :=
  ⟨value⟩

/-- One step: the next element, or once the error of a chain that ends badly,
or nothing at the end and ever after. The error is given once because the
cursor then stands before the empty list. -/
def next (cursor : Cursor) : Option (Except Error Value) × Cursor :=
  match cursor.rest with
  | .pair car cdr => (some (.ok car), ⟨cdr⟩)
  | .empty => (none, cursor)
  | _ => (some (.error .malformedList), ⟨.empty⟩)

/-- So many steps: what each of them gave and where each of them led. -/
def steps : Nat → Cursor → List (Option (Except Error Value) × Cursor)
  | 0, _ => []
  | count + 1, cursor =>
      let step := cursor.next
      step :: steps count step.2

end Cursor

end Sexpr

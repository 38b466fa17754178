import Sexpr.Value.Canonical

/-!
# The lenient text of a value

Every value has a lenient text. It is the canonical one where that exists; a
chain that ends badly shows its terminal behind a dot.
-/

namespace Sexpr

namespace Value

mutual

/-- Adds the lenient text of a value to a text. -/
def lenientOnto (text : String) : Value → String
  | pair car cdr => lenientRestOnto (lenientOnto (text ++ "(") car) cdr
  | atom => text ++ atom.atomText

/-- Adds what comes after the first element of a chain. -/
def lenientRestOnto (text : String) : Value → String
  | pair car cdr => lenientRestOnto (lenientOnto (text ++ " ") car) cdr
  | empty => text ++ ")"
  | terminal => text ++ " . " ++ terminal.atomText ++ ")"

end

def lenient (value : Value) : String :=
  lenientOnto "" value

/-- The canonical text, or the lenient one where there is no canonical text. -/
def describe (value : Value) : String :=
  match value.render with
  | .ok text => text
  | .error _ => value.lenient

end Value

end Sexpr

import Sexpr.Decimal.Layout
import Sexpr.Sink.Chars
import Sexpr.Value.Basic

/-!
# The canonical text of a value

A proper list is written between parentheses, its elements apart by a space,
and an atom by its bare name or number. There is no canonical text for a chain
that ends in anything but the empty list. That shows only at its end, so the
text is written as far as it goes before the error comes.
-/

namespace Sexpr

namespace Value

/-- The text of an atom. A pair is none. -/
def atomText : Value → String
  | int n => toString n.toInt
  | real x => Layout.plain.write x
  | symbol name => name
  | pair .. | empty => "()"

mutual

/-- Writes the canonical text into a sink. -/
def writeTo : Value → Writing Unit
  | pair car cdr => do
      CharSink.write "("
      writeTo car
      writeRest cdr
  | atom => CharSink.write atom.atomText

/-- Writes what comes after the first element of a list. -/
def writeRest : Value → Writing Unit
  | pair car cdr => do
      CharSink.write " "
      writeTo car
      writeRest cdr
  | empty => CharSink.write ")"
  | _ => throw .malformedList

end

/-- The canonical text as a whole, if there is one. -/
def render (value : Value) : Except Error String :=
  match value.writeTo .unbounded with
  | .ok _ sink => .ok sink.text
  | .error error _ => .error error

end Value

end Sexpr

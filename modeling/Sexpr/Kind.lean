/-!
# Kinds

Every diagnostic that turns a value away says which of five kinds it met, so
the kind is a type of its own: it can be named in an error without keeping the
value, and it is written the same way everywhere.
-/

namespace Sexpr

/-- What a value is, its contents left aside. -/
inductive Kind where
  | int
  | real
  | symbol
  | pair
  | empty
deriving DecidableEq, Repr, Inhabited

namespace Kind

def text : Kind → String
  | int => "int"
  | real => "real"
  | symbol => "symbol"
  | pair => "pair"
  | empty => "empty"

/-- All kinds, in the order of their numbers. -/
def all : List Kind := [int, real, symbol, pair, empty]

def ofText? (word : String) : Option Kind :=
  all.find? (·.text == word)

/-- The kind of a number, counted from zero. -/
def ofOrdinal? (n : Nat) : Option Kind :=
  all[n]?

end Kind

end Sexpr

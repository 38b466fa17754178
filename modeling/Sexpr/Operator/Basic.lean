import Sexpr.Arity

/-!
# Operators

There are seventeen operators and no way to add one. Each is known by a symbol,
and takes its operands unevaluated: which of them it evaluates, and in what
order, is its own affair.
-/

namespace Sexpr

/-- An operation an evaluated list may name in front. -/
inductive Operator where
  | add
  | subtract
  | multiply
  | divide
  | ceiling
  | floor
  | less
  | negation
  | choice
  | quote
  | cons
  | car
  | cdr
  | nullp
  | define
  | print
  | eval
deriving DecidableEq, Repr, Inhabited

namespace Operator

def all : List Operator :=
  [add, subtract, multiply, divide, ceiling, floor, less, negation, choice,
    quote, cons, car, cdr, nullp, define, print, eval]

/-- The symbol an operator is known by. -/
def name : Operator → String
  | add => "+"
  | subtract => "-"
  | multiply => "*"
  | divide => "/"
  | ceiling => "ceiling"
  | floor => "floor"
  | less => "<"
  | negation => "not"
  | choice => "if"
  | quote => "quote"
  | cons => "cons"
  | car => "car"
  | cdr => "cdr"
  | nullp => "nullp"
  | define => "define"
  | print => "print"
  | eval => "eval"

def ofName? (symbol : String) : Option Operator :=
  all.find? (·.name == symbol)

/-- How many operands an operator takes. -/
def arity : Operator → Arity
  | add | multiply | less => .any
  | subtract | divide => .atLeast 2
  | choice => .range 2 3
  | cons | define => .exactly 2
  | ceiling | floor | negation | quote | car | cdr | nullp | print | eval => .exactly 1

def tagged : Operator → String
  | add => "Add"
  | subtract => "Sub"
  | multiply => "Mul"
  | divide => "Div"
  | ceiling => "Ceiling"
  | floor => "Floor"
  | less => "Less"
  | negation => "Not"
  | choice => "If"
  | quote => "Quote"
  | cons => "Cons"
  | car => "Car"
  | cdr => "Cdr"
  | nullp => "Nullp"
  | define => "Define"
  | print => "Print"
  | eval => "Eval"

end Operator

end Sexpr

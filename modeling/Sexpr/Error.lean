import Sexpr.Arity
import Sexpr.Kind

/-!
# Errors

An error is its cause. The wording, the number and the category are functions
of the cause, written once here, so that whoever raises an error decides only
what went wrong. None of the causes is fatal: an evaluation that fails leaves
the environment and the sink as far as it had brought them.
-/

namespace Sexpr

/-- Why an operation failed. -/
inductive Error where
  /-- A value of one kind was needed and another was found. -/
  | typeMismatch (expected found : Kind)
  /-- A number was needed. -/
  | notNumeric (found : Kind)
  /-- The operands were too few or too many. -/
  | arityMismatch (operator : String) (expected : Arity) (received : Nat)
  | divisionByZero
  /-- The head of an applied list is no symbol. -/
  | notAnOperator (found : Kind)
  | unknownOperator (name : String)
  | unboundSymbol (name : String)
  /-- A name that belongs to an operator cannot be bound. -/
  | reservedName (name : String)
  /-- A chain of pairs ends in something other than the empty list. -/
  | malformedList
  /-- A sink refused a write. -/
  | output (reason : String)
deriving DecidableEq, Repr, Inhabited

/-- The families of errors, one for each hundred of error numbers. -/
inductive Category where
  | type
  | arity
  | arithmetic
  | dispatch
  | binding
  | chain
  | output
deriving DecidableEq, Repr, Inhabited

/-- The number of an error, stable over all versions of its wording. -/
structure ErrorCode where
  number : UInt16
deriving DecidableEq, Repr, Inhabited

namespace Category

def text : Category → String
  | type => "type"
  | arity => "arity"
  | arithmetic => "arithmetic"
  | dispatch => "dispatch"
  | binding => "binding"
  | chain => "structure"
  | output => "output"

def all : List Category :=
  [type, arity, arithmetic, dispatch, binding, chain, output]

def ofText? (word : String) : Option Category :=
  all.find? (·.text == word)

end Category

namespace ErrorCode

/-- The category of a number is read off its hundreds. Every number outside
the first six families counts as an output error. -/
def category (code : ErrorCode) : Category :=
  match code.number.toNat / 100 with
  | 1 => .type
  | 2 => .arity
  | 3 => .arithmetic
  | 4 => .dispatch
  | 5 => .binding
  | 6 => .chain
  | _ => .output

def text (code : ErrorCode) : String :=
  "E" ++ toString code.number.toNat

end ErrorCode

namespace Error

def code : Error → ErrorCode
  | typeMismatch .. => ⟨100⟩
  | notNumeric _ => ⟨101⟩
  | arityMismatch .. => ⟨200⟩
  | divisionByZero => ⟨300⟩
  | notAnOperator _ => ⟨400⟩
  | unknownOperator _ => ⟨401⟩
  | unboundSymbol _ => ⟨500⟩
  | reservedName _ => ⟨501⟩
  | malformedList => ⟨600⟩
  | output _ => ⟨700⟩

def category (error : Error) : Category :=
  error.code.category

/-- What a reader is told. -/
def message : Error → String
  | typeMismatch expected found =>
      s!"type mismatch: expected {expected.text}, found {found.text}"
  | notNumeric found => s!"expected a number, found {found.text}"
  | arityMismatch operator expected received =>
      s!"`{operator}` takes {expected.text} argument(s), received {received}"
  | divisionByZero => "division by zero"
  | notAnOperator found =>
      s!"cannot apply {found.text}: " ++
        "the first element of an evaluated list must be an operator symbol"
  | unknownOperator name => s!"unknown operator `{name}`"
  | unboundSymbol name => s!"reference to undefined symbol `{name}`"
  | reservedName name => s!"built-in operator `{name}` cannot be redefined"
  | malformedList => "malformed list: pair chain does not end in ()"
  | output reason => s!"output failed: {reason}"

end Error

end Sexpr

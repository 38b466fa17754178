import Sexpr.NameMap
import Sexpr.Operator.Basic
import Sexpr.Value.Tagged

/-!
# Environments

There is one scope. Variables share their names with the operators, and the
operators have the better right: a name that an operator is known by cannot be
bound, so it never has a value. A binding stays until the name is bound again.
-/

namespace Sexpr

/-- The values that names are bound to. -/
structure Environment where
  bindings : NameMap Value
deriving Inhabited

namespace Environment

def empty : Environment := ⟨.empty⟩

/-- Whether a name may be bound, and why not. -/
def checkDefinable (name : String) : Except Error Unit :=
  match Operator.ofName? name with
  | some _ => .error (.reservedName name)
  | none => .ok ()

/-- Binds a name to a value, in place of the one it had, and answers whether the
name may be bound. -/
def define (environment : Environment) (name : String) (value : Value) :
    Except Error Unit × Environment :=
  match checkDefinable name with
  | .error error => (.error error, environment)
  | .ok () => (.ok (), ⟨environment.bindings.insert name value⟩)

def lookup (environment : Environment) (name : String) : Except Error Value :=
  match environment.bindings.find? name with
  | some value => .ok value
  | none => .error (.unboundSymbol name)

def contains (environment : Environment) (name : String) : Bool :=
  environment.bindings.contains name

def size (environment : Environment) : Nat :=
  environment.bindings.size

def isEmpty (environment : Environment) : Bool :=
  environment.bindings.isEmpty

def names (environment : Environment) : List String :=
  environment.bindings.names

def tagged (environment : Environment) : String :=
  let bindings := environment.bindings.entries.map fun entry =>
    Text.quoted entry.1 ++ ": " ++ entry.2.tagged
  "Environment \x7b bindings: \x7b" ++ ", ".intercalate bindings ++ "\x7d \x7d"

end Environment

end Sexpr

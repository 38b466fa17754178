import Sexpr.Environment
import Sexpr.Sink.Bytes

/-!
# Runs and actions

A run starts in a machine state and, if it comes to an end, leaves an answer
and the state it has got to. That state is there for a failed run as well,
since what was bound and printed before the failure remains. Two things can
keep a run from ending, and they are kept apart from each other and from every
error: the fuel may be too little, and an operator may look for an operand it
was not given. The second never happens in an evaluation; that it has a name of
its own is what lets one say so.

An action is a run that still waits for its starting state. Actions are put
together so that each one starts where the one before it ended, and the first
error ends them all.
-/

namespace Sexpr

/-- What a run reads and changes: the bindings, and what has been printed. -/
structure Machine where
  environment : Environment
  sink : ByteSink
deriving Inhabited

inductive Run (σ α : Type) where
  /-- The run has ended. -/
  | done (answer : α) (after : σ)
  /-- An operator looked for an operand it was not given. -/
  | stuck
  /-- The evaluations were nested deeper than the fuel allows. -/
  | outOfFuel

/-- A run that waits for its starting state, and may answer with an error. -/
def Action (α : Type) : Type :=
  Machine → Run Machine (Except Error α)

namespace Action

variable {α β : Type}

/-- Answers and changes nothing. -/
@[always_inline, inline]
protected def pure (answer : α) : Action α :=
  fun machine => .done (.ok answer) machine

/-- Goes on with the answer of an action, in the state that it left. -/
@[always_inline, inline]
protected def bind (action : Action α) (next : α → Action β) : Action β :=
  fun machine =>
    match action machine with
    | .done (.ok answer) after => next answer after
    | .done (.error error) after => .done (.error error) after
    | .stuck => .stuck
    | .outOfFuel => .outOfFuel

@[always_inline]
instance : Monad Action where
  pure := Action.pure
  bind := Action.bind

/-- Fails and changes nothing. -/
def fail (error : Error) : Action α :=
  fun machine => .done (.error error) machine

/-- An answer that does not depend on the state. -/
def ofExcept (answer : Except Error α) : Action α :=
  fun machine => .done answer machine

/-- Goes on from the state that a step has left, unless the step failed. The state
is one that the action keeps for itself, beside that of the machine. -/
def ofStep {σ : Type} (step : Except Error Unit × σ) : Action σ :=
  ofExcept (step.1.map fun _ => step.2)

/-- Cannot go on. -/
def stuck : Action α :=
  fun _ => .stuck

def lookup (name : String) : Action Value :=
  fun machine => .done (machine.environment.lookup name) machine

def define (name : String) (value : Value) : Action Unit :=
  fun machine =>
    match machine.environment.define name value with
    | (answer, environment) => .done answer { machine with environment }

def emitLine (text : String) : Action Unit :=
  fun machine =>
    match machine.sink.writeLine text with
    | (answer, sink) => .done answer { machine with sink }

end Action

end Sexpr

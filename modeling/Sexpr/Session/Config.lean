import Sexpr.Json.Forms

/-!
# Configurations

Two switches say how a session treats what is printed and what fails. They are
read from a document that may leave either of them out, as an object or as an
array in their order. Members of other names are passed over, but a switch must
not be named twice.
-/

namespace Sexpr

/-- The switches of a session. -/
structure Config where
  /-- Whether what is printed is kept in the session. -/
  captureOutput : Bool
  /-- Whether a batch goes on behind an expression that failed. -/
  continueOnError : Bool
deriving DecidableEq, Repr

namespace Config

/-- What a switch is where nothing is said: printing goes out, and a batch goes
on. -/
def standard : Config := ⟨false, true⟩

instance : Inhabited Config := ⟨standard⟩

/-- The standard configuration, but for keeping what is printed. -/
def captured : Config := { standard with captureOutput := true }

def toJson (config : Config) : Json :=
  .ofMembers [("capture_output", .boolean config.captureOutput),
    ("continue_on_error", .boolean config.continueOnError)]

/-- The switches that the members of an object set, each of them at most once. -/
def switches? : List (Option String × Json) → Option (Option Bool × Option Bool)
  | [] => some (none, none)
  | (none, _) :: _ => none
  | (some key, contents) :: rest =>
      match switches? rest with
      | none => none
      | some (capture, proceed) =>
          if key = "capture_output" then
            match capture, contents.boolean? with
            | none, some flag => some (some flag, proceed)
            | _, _ => none
          else if key = "continue_on_error" then
            match proceed, contents.boolean? with
            | none, some flag => some (capture, some flag)
            | _, _ => none
          else some (capture, proceed)

/-- The configuration that sets so many of the switches. -/
def ofSwitches (capture proceed : Option Bool) : Config :=
  ⟨capture.getD standard.captureOutput, proceed.getD standard.continueOnError⟩

def ofJson? : Json → Option Config
  | .object members => (switches? members).map fun flags => ofSwitches flags.1 flags.2
  | .array [] => some standard
  | .array [.boolean capture] => some (ofSwitches (some capture) none)
  | .array [.boolean capture, .boolean proceed] =>
      some (ofSwitches (some capture) (some proceed))
  | _ => none

def parse? (text : String) : Option Config :=
  (Json.parse? text).bind ofJson?

/-- What a reader is told about a text that is no configuration. -/
def invalidMessage : String := "invalid configuration"

end Config

end Sexpr

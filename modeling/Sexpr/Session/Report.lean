import Sexpr.Json.Compact
import Sexpr.Json.Forms
import Sexpr.Value.Lenient

/-!
# Reports on batches

A report says of each expression of a batch what came of it, as text. A value
is reported even if it has no canonical text. The number of failures and
whether the batch was broken off are kept beside the outcomes.
-/

namespace Sexpr

/-- What came of an expression. -/
inductive Outcome where
  | value (text : String)
  | error (code : ErrorCode) (category : Category) (message : String)
deriving DecidableEq, Repr

namespace Outcome

/-- What came of an expression with a certain answer. -/
def ofAnswer : Except Error Value → Outcome
  | .ok result => .value result.describe
  | .error cause => .error cause.code cause.category cause.message

def isError : Outcome → Bool
  | value _ => false
  | error .. => true

def toJson : Outcome → Json
  | value text => .ofMembers [("status", .ofText "value"), ("text", .ofText text)]
  | error code category message =>
      .ofMembers [("status", .ofText "error"), ("code", code.toJson),
        ("category", category.toJson), ("message", .ofText message)]

end Outcome

/-- What came of a batch. -/
structure Report where
  /-- The outcomes in the order of the expressions. -/
  outcomes : List Outcome
  totalErrors : Nat
  /-- Whether a failure kept later expressions from being evaluated. -/
  stoppedEarly : Bool
deriving DecidableEq, Repr

namespace Report

def hasErrors (report : Report) : Bool :=
  decide (0 < report.totalErrors)

def toJson (report : Report) : Json :=
  .ofMembers [("outcomes", .array (report.outcomes.map Outcome.toJson)),
    ("total_errors", .ofNat report.totalErrors),
    ("stopped_early", .boolean report.stoppedEarly)]

def compact (report : Report) : String :=
  report.toJson.compact

end Report

end Sexpr

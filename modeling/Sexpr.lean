import Sexpr.Environment
import Sexpr.Eval.Basic
import Sexpr.Json.Compact
import Sexpr.Json.ValueForm
import Sexpr.Numeric.Ascent
import Sexpr.Numeric.RunningTotal
import Sexpr.Operator.Table
import Sexpr.Proofs.Accumulation
import Sexpr.Proofs.Application
import Sexpr.Proofs.Ascending
import Sexpr.Proofs.Batch
import Sexpr.Proofs.Bindings
import Sexpr.Proofs.CanonicalText
import Sexpr.Proofs.CapturedOutput
import Sexpr.Proofs.Channels
import Sexpr.Proofs.Correspondence
import Sexpr.Proofs.Course
import Sexpr.Proofs.Cursors
import Sexpr.Proofs.Definition
import Sexpr.Proofs.Dialogue
import Sexpr.Proofs.Dispatch
import Sexpr.Proofs.Division
import Sexpr.Proofs.DocumentReading
import Sexpr.Proofs.Effects
import Sexpr.Proofs.Feeding
import Sexpr.Proofs.FloatArithmetic
import Sexpr.Proofs.FloatEquality
import Sexpr.Proofs.FloatOperations
import Sexpr.Proofs.FloatOrder
import Sexpr.Proofs.FloatRounding
import Sexpr.Proofs.FloatSigns
import Sexpr.Proofs.FloatStorage
import Sexpr.Proofs.FullSink
import Sexpr.Proofs.Fundamental
import Sexpr.Proofs.Halves
import Sexpr.Proofs.IntegerArithmetic
import Sexpr.Proofs.IntegerText
import Sexpr.Proofs.LastBinding
import Sexpr.Proofs.LenientText
import Sexpr.Proofs.Locality
import Sexpr.Proofs.Mixtures
import Sexpr.Proofs.Nesting
import Sexpr.Proofs.OperatorNames
import Sexpr.Proofs.Outcomes
import Sexpr.Proofs.Output
import Sexpr.Proofs.Preservation
import Sexpr.Proofs.Printing
import Sexpr.Proofs.Quotation
import Sexpr.Proofs.QuotedStrings
import Sexpr.Proofs.Rejection
import Sexpr.Proofs.ReportText
import Sexpr.Proofs.Returns
import Sexpr.Proofs.Rounding
import Sexpr.Proofs.Schedule
import Sexpr.Proofs.ShortCircuit
import Sexpr.Proofs.Spines
import Sexpr.Proofs.StoppedProduct
import Sexpr.Proofs.Streaming
import Sexpr.Proofs.Subtraction
import Sexpr.Proofs.Symbols
import Sexpr.Proofs.Truncation
import Sexpr.Proofs.Truthfulness
import Sexpr.Proofs.ValueReading
import Sexpr.Session.Basic
import Sexpr.Text.Utf8
import Sexpr.Value.Chain
import Sexpr.Value.Lenient
import Sexpr.Value.Tagged

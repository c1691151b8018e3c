import WidthExact.Binary.Basic
import WidthExact.Binary.Convert
import WidthExact.Binary.Elementary
import WidthExact.Binary.Literal
import WidthExact.Binary.Rounding
import WidthExact.Binary.SquareRoot
import WidthExact.Catalogue
import WidthExact.CommandLine.Arguments
import WidthExact.CommandLine.Response
import WidthExact.Decimal.Basic
import WidthExact.Decimal.Numeral
import WidthExact.Decimal.Shortest
import WidthExact.Diagnostic
import WidthExact.Enclosure.Basic
import WidthExact.Enclosure.Series
import WidthExact.Evaluator.Basic
import WidthExact.Evaluator.CallError
import WidthExact.Evaluator.Dispatch
import WidthExact.Evaluator.Program
import WidthExact.Json.Basic
import WidthExact.Json.Codec
import WidthExact.Json.Number
import WidthExact.Json.Parser
import WidthExact.Json.PrimitiveCodec
import WidthExact.Json.Printer
import WidthExact.Main
import WidthExact.Primitive.Basic
import WidthExact.Primitive.Name
import WidthExact.Primitive.Operation
import WidthExact.Primitive.Signature
import WidthExact.Scalar.Basic
import WidthExact.Scalar.Literal
import WidthExact.Text.GraphemeExtend
import WidthExact.Text.Numeral
import WidthExact.Text.Quoted
import WidthExact.Text.Unprintable
import WidthExact.Width
import WidthExact.Word.Arithmetic
import WidthExact.Word.Basic
import WidthExact.Word.Division
import WidthExact.Word.Order
import WidthExact.Proofs.Catalogue.Entries
import WidthExact.Proofs.Evaluator.Operands
import WidthExact.Proofs.Evaluator.Outcome
import WidthExact.Proofs.Catalogue.Agreement
import WidthExact.Proofs.Evaluator.Session
import WidthExact.Proofs.Binary.Rounding
import WidthExact.Proofs.Decimal.Value
import WidthExact.Proofs.Decimal.Positional
import WidthExact.Proofs.Binary.Literal
import WidthExact.Proofs.Scalar.Literal
import WidthExact.Proofs.Word.Readings
import WidthExact.Proofs.Word.Division
import WidthExact.Proofs.Word.Power
import WidthExact.Proofs.Primitive.Emulation
import WidthExact.Proofs.Primitive.Expression
import WidthExact.Proofs.Scalar.Zero
import WidthExact.Proofs.Evaluator.Policy
import WidthExact.Proofs.CommandLine.Call
import WidthExact.Proofs.Evaluator.Resolution
import WidthExact.Proofs.CommandLine.Status
import WidthExact.Proofs.Json.Text
import WidthExact.Proofs.Json.Spelling
import WidthExact.Proofs.Json.Forms
import WidthExact.Proofs.Json.Canonical
import WidthExact.Proofs.Binary.Exact
import WidthExact.Proofs.Json.Scaling
import WidthExact.Proofs.Json.Decimal
import WidthExact.Proofs.Binary.DoubleRounding
import WidthExact.Proofs.Json.Float
import WidthExact.Proofs.Binary.Nearest
import WidthExact.Proofs.Binary.Format
import WidthExact.Proofs.Binary.Truncation
import WidthExact.Proofs.Primitive.IntToFloat
import WidthExact.Proofs.Primitive.FloatToInt
import WidthExact.Proofs.Primitive.RoundTrip
import WidthExact.Proofs.Primitive.Routes
import WidthExact.Proofs.Primitive.StrengthReduction
import WidthExact.Proofs.Scalar.Numeral
import WidthExact.Proofs.Scalar.Float
import WidthExact.Proofs.Text.Base
import WidthExact.Proofs.Scalar.Integer
import WidthExact.Proofs.Truncated
import WidthExact.Proofs.Word.Floor
import WidthExact.Proofs.Word.ExactDivision
import WidthExact.Proofs.Json.Pretty
import WidthExact.Proofs.CommandLine.Listing
import WidthExact.Proofs.Word.Shift
import WidthExact.Proofs.Primitive.Chain
import WidthExact.Proofs.HalfEven
import WidthExact.Proofs.Binary.Order
import WidthExact.Proofs.Binary.Integral
import WidthExact.Proofs.Decimal.Shortest
import WidthExact.Proofs.Scalar.Shortest
import WidthExact.Proofs.Binary.Reduction
import WidthExact.Proofs.Scalar.BitCast
import WidthExact.Proofs.Word.Order
import WidthExact.Proofs.Binary.SquareRoot
import WidthExact.Proofs.Width
import WidthExact.Proofs.Text.Quoted
import WidthExact.Proofs.Message

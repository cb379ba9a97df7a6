import Swatch.Binary64.Angle
import Swatch.Binary64.Arithmetic
import Swatch.Binary64.Basic
import Swatch.Binary64.Elementary
import Swatch.Binary64.Power
import Swatch.Binary64.Root
import Swatch.Binary64.Rounding
import Swatch.Color.Companding
import Swatch.Color.Hsl
import Swatch.Color.Oklab
import Swatch.Color.Sample
import Swatch.Decimal.Fixed
import Swatch.Decimal.Numeral
import Swatch.Decimal.Shortest
import Swatch.Document.Basic
import Swatch.Document.Edit
import Swatch.Fault
import Swatch.Fault.Message
import Swatch.Form.Basic
import Swatch.Form.Components
import Swatch.Form.Hex
import Swatch.Form.Hsl
import Swatch.Form.Layout
import Swatch.Form.Oklch
import Swatch.Form.Rgb
import Swatch.Json.Basic
import Swatch.Json.Printer
import Swatch.Json.Reader
import Swatch.Literal
import Swatch.Proofs.Binary64.Accurate
import Swatch.Proofs.Binary64.Bounds
import Swatch.Proofs.Binary64.Direction
import Swatch.Proofs.Binary64.Error
import Swatch.Proofs.Binary64.Euler
import Swatch.Proofs.Binary64.Grid
import Swatch.Proofs.Binary64.HalfUp
import Swatch.Proofs.Binary64.Integer
import Swatch.Proofs.Binary64.Nearest
import Swatch.Proofs.Binary64.Overflow
import Swatch.Proofs.Binary64.Powers
import Swatch.Proofs.Binary64.Roots
import Swatch.Proofs.Binary64.Rounding
import Swatch.Proofs.Binary64.Taylor
import Swatch.Proofs.Binary64.Value
import Swatch.Proofs.Color.Companding
import Swatch.Proofs.Color.Cones
import Swatch.Proofs.Color.Hsl
import Swatch.Proofs.Color.HslError
import Swatch.Proofs.Color.HueBytes
import Swatch.Proofs.Color.Light
import Swatch.Proofs.Color.OklabError
import Swatch.Proofs.Color.OklchError
import Swatch.Proofs.Color.Polar
import Swatch.Proofs.Color.Sample
import Swatch.Proofs.Color.Sextant
import Swatch.Proofs.Color.Wheel
import Swatch.Proofs.Decimal.Fewest
import Swatch.Proofs.Decimal.Fixed
import Swatch.Proofs.Decimal.Numeral
import Swatch.Proofs.Decimal.Places
import Swatch.Proofs.Decimal.PlainText
import Swatch.Proofs.Decimal.Reading
import Swatch.Proofs.Decimal.Shortest
import Swatch.Proofs.Decimal.Trimmed
import Swatch.Proofs.Decimal.Value
import Swatch.Proofs.Decimal.Written
import Swatch.Proofs.Document.Cut
import Swatch.Proofs.Document.Gaps
import Swatch.Proofs.Document.Idempotent
import Swatch.Proofs.Document.Intermediate
import Swatch.Proofs.Document.LetterCase
import Swatch.Proofs.Document.Reports
import Swatch.Proofs.Document.Rescan
import Swatch.Proofs.Document.Rewriting
import Swatch.Proofs.Document.Single
import Swatch.Proofs.Document.Undo
import Swatch.Proofs.Form.Alpha
import Swatch.Proofs.Form.Function
import Swatch.Proofs.Form.Parts
import Swatch.Proofs.Form.Reading
import Swatch.Proofs.Form.Search
import Swatch.Proofs.Form.Writing
import Swatch.Proofs.Form.Written
import Swatch.Proofs.Literal.Converted
import Swatch.Proofs.Literal.Grammar
import Swatch.Proofs.Literal.HexDigits
import Swatch.Proofs.Literal.HslRoundTrip
import Swatch.Proofs.Literal.Image
import Swatch.Proofs.Literal.IntegerChannels
import Swatch.Proofs.Literal.OklchRoundTrip
import Swatch.Proofs.Literal.OklchText
import Swatch.Proofs.Literal.Opaque
import Swatch.Proofs.Literal.Reading
import Swatch.Proofs.Literal.Reread
import Swatch.Proofs.Literal.RgbRoundTrip
import Swatch.Proofs.Literal.Samples
import Swatch.Proofs.Literal.Scan
import Swatch.Proofs.Literal.Stable
import Swatch.Proofs.Service.Agreement
import Swatch.Proofs.Text.Letter
import Swatch.Proofs.Text.Parts
import Swatch.Report
import Swatch.Service.Basic
import Swatch.Service.Call
import Swatch.Service.Validation
import Swatch.Settings
import Swatch.Text.Basic
import Swatch.Text.Blank
import Swatch.Text.Digit
import Swatch.Text.Encoding
import Swatch.Text.Hexadecimal
import Swatch.Text.Letter
import Swatch.Text.Printable
import Swatch.Text.Quoted

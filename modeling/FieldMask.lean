import FieldMask.Datum
import FieldMask.Decimal.Layout
import FieldMask.Decimal.Shortest
import FieldMask.Event
import FieldMask.Filter.Basic
import FieldMask.Filter.Compiler
import FieldMask.Filter.Request
import FieldMask.Filter.Settings
import FieldMask.Json.Basic
import FieldMask.Json.Number
import FieldMask.Json.Object
import FieldMask.Json.Path
import FieldMask.Json.Printer
import FieldMask.Pattern.Brace
import FieldMask.Pattern.Error
import FieldMask.Pattern.Expression
import FieldMask.Pattern.Grammar
import FieldMask.Pattern.Lexer
import FieldMask.Pattern.Printer
import FieldMask.Pattern.Report
import FieldMask.Pattern.Token
import FieldMask.Projection
import FieldMask.Projection.Alike
import FieldMask.Projection.Fits
import FieldMask.Proofs.Basic
import FieldMask.Proofs.Datum.Parts
import FieldMask.Proofs.Json.Keyed
import FieldMask.Proofs.Pattern.Acceptance
import FieldMask.Proofs.Pattern.Balance
import FieldMask.Proofs.Pattern.Budget
import FieldMask.Proofs.Pattern.Faults
import FieldMask.Proofs.Pattern.Joining
import FieldMask.Proofs.Pattern.Layout
import FieldMask.Proofs.Pattern.Lexemes
import FieldMask.Proofs.Pattern.Limit
import FieldMask.Proofs.Pattern.Locality
import FieldMask.Proofs.Pattern.Location
import FieldMask.Proofs.Pattern.Matching
import FieldMask.Proofs.Pattern.Parametric
import FieldMask.Proofs.Pattern.Reading
import FieldMask.Proofs.Pattern.RepeatedKeys
import FieldMask.Proofs.Pattern.RoundTrip
import FieldMask.Proofs.Pattern.Segments
import FieldMask.Proofs.Pattern.Stepping
import FieldMask.Proofs.Pattern.Stops
import FieldMask.Proofs.Pattern.Viable
import FieldMask.Proofs.Pattern.Words
import FieldMask.Proofs.Projection.Entries
import FieldMask.Proofs.Projection.Fixed
import FieldMask.Proofs.Projection.Meet
import FieldMask.Proofs.Projection.Moving
import FieldMask.Proofs.Projection.Observation
import FieldMask.Proofs.Projection.Order
import FieldMask.Proofs.Projection.Paths
import FieldMask.Proofs.Projection.Repeats
import FieldMask.Proofs.Selector.Spellings
import FieldMask.Proofs.Text.ClosingQuote
import FieldMask.Proofs.Text.Pieces
import FieldMask.Proofs.Text.Quoted
import FieldMask.Selector.Basic
import FieldMask.Selector.Encoding
import FieldMask.Selector.Siblings
import FieldMask.Text.Blank
import FieldMask.Text.CharClass
import FieldMask.Text.Literal
import FieldMask.Text.Printable
import FieldMask.Text.Quoted
import FieldMask.Text.Span

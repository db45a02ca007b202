import TableQuery.Main
import TableQuery.Proofs.Query.Acceptance
import TableQuery.Proofs.Query.FirstFailure
import TableQuery.Proofs.Number.ReadBack
import TableQuery.Proofs.Query.Spelling
import TableQuery.Proofs.Query.Spacing
import TableQuery.Proofs.Query.Printing
import TableQuery.Proofs.Delimited.Records
import TableQuery.Proofs.Query.Comparison
import TableQuery.Proofs.Session.Meaning
import TableQuery.Proofs.Query.Separation
import TableQuery.Proofs.Text.Trimming
import TableQuery.Proofs.Query.Surroundings
import TableQuery.Proofs.Text.Ascii
import TableQuery.Proofs.Session.Journal
import TableQuery.Proofs.Session.SingleQuery
import TableQuery.Proofs.Delimited.Cells
import TableQuery.Proofs.Delimited.Written
import TableQuery.Proofs.Delimited.RoundTrip
import TableQuery.Proofs.Report.JsonSyntax
import TableQuery.Proofs.Report.JsonText
import TableQuery.Proofs.Report.JsonMeaning
import TableQuery.Proofs.Number.Rounding
import TableQuery.Proofs.Number.Scientific
import TableQuery.Proofs.Report.JsonNumber
import TableQuery.Proofs.Session.Composition
import TableQuery.Proofs.FirstMention
import TableQuery.Proofs.Session.Alignment
import TableQuery.Proofs.Delimited.Boundary
import TableQuery.Proofs.Delimited.Extension
import TableQuery.Proofs.Report.AllHeaders
import TableQuery.Proofs.Number.Grid
import TableQuery.Proofs.Number.Nearest
import TableQuery.Proofs.Number.DecimalText
import TableQuery.Proofs.Value.NumberText
import TableQuery.Proofs.Value.Coercion
import TableQuery.Proofs.Value.Display
import TableQuery.Proofs.Query.LiteralCell
import TableQuery.Proofs.Query.LongestToken
import TableQuery.Proofs.Number.DigitByDigit
import TableQuery.Proofs.Delimited.LineNumber
import TableQuery.Proofs.Report.WholeNumberText
import TableQuery.Proofs.Value.Notations
import TableQuery.Proofs.Delimited.TrimmedText
import TableQuery.Proofs.Text.ByteOrder
import TableQuery.Proofs.Query.Sources
import TableQuery.Proofs.Query.Partition
import TableQuery.Proofs.Query.Bounds
import TableQuery.Proofs.Query.Stages
import TableQuery.Proofs.Query.Projection
import TableQuery.Proofs.OrderedMap
import TableQuery.Proofs.Report.TableLayout
import TableQuery.Proofs.Query.RepeatedCalls
import TableQuery.Proofs.Text.Places
import TableQuery.Proofs.Query.Caret
import TableQuery.Proofs.Text.Slices
import TableQuery.Proofs.Query.ByteLexer
import TableQuery.Proofs.Query.ByteParser
import TableQuery.Proofs.Query.Descent

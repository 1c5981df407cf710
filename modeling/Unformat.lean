import Unformat.Main
import Unformat.Session.Runs
import Unformat.Proofs.Plan.Fitting
import Unformat.Proofs.Plan.RuleFaults
import Unformat.Proofs.Plan.Repeating
import Unformat.Proofs.Plan.MissingSlots
import Unformat.Proofs.Text.LongestPrefix
import Unformat.Proofs.Input.Chunks
import Unformat.Proofs.Number.Decimal
import Unformat.Proofs.Pattern.Address
import Unformat.Proofs.Pattern.OpenAddress
import Unformat.Proofs.Pattern.RealNumber
import Unformat.Proofs.Plan.Compiling
import Unformat.Proofs.Scan.Chunking
import Unformat.Proofs.Scan.Interrupted
import Unformat.Proofs.Scan.RoundTrip
import Unformat.Proofs.Scan.Accounting
import Unformat.Proofs.Scan.EveryLine
import Unformat.Proofs.Scan.LinesApart
import Unformat.Proofs.Pattern.Refusing
import Unformat.Proofs.Scan.LineReading
import Unformat.Proofs.Scan.LinesAlike
import Unformat.Proofs.Scan.LineEnds
import Unformat.Proofs.Scan.LineCuts
import Unformat.Proofs.Scan.LineContent
import Unformat.Proofs.Scan.LineEndings
import Unformat.Proofs.Session.Transparency
import Unformat.Proofs.Session.Lines
import Unformat.Proofs.Template.Grammar
import Unformat.Proofs.Template.Reading
import Unformat.Proofs.Template.Merging
import Unformat.Proofs.Template.Acceptance
import Unformat.Proofs.Template.RoundTrip
import Unformat.Proofs.Plan.Canonical
import Unformat.Proofs.ScanType.Naming
import Unformat.Proofs.ScanType.Integers
import Unformat.Proofs.ScanType.Agreeing
import Unformat.Proofs.ScanType.Addresses
import Unformat.Proofs.Rule.Describing
import Unformat.Proofs.Scan.Progress
import Unformat.Proofs.Scan.LineStarts
import Unformat.Proofs.CommandLine.Refusing
import Unformat.Proofs.Rule.Acceptance
import Unformat.Proofs.Rule.FrontEnds
import Unformat.Proofs.CommandLine.EachLine
import Unformat.Proofs.CommandLine.Mistakes
import Unformat.Proofs.Template.Concatenation
import Unformat.Proofs.Scan.FirstMalformed
import Unformat.Proofs.Scan.LiteralPlace
import Unformat.Proofs.Input.LineConsuming
import Unformat.Proofs.Input.Keeping
import Unformat.Proofs.Scan.ReadingAhead
import Unformat.Proofs.Scan.Yielding
import Unformat.Proofs.CommandLine.JsonRows
import Unformat.Proofs.CommandLine.TabbedRows

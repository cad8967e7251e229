import Emplace.Path.Absolute
import Emplace.Text.Blank
import Emplace.Text.Quoted
import Emplace.Number.Double
import Emplace.Value.Merge
import Emplace.Value.Text
import Emplace.Placeholder
import Emplace.Record
import Emplace.Invocation
import Emplace.Disk.Canonical
import Emplace.Registry
import Emplace.Emission
import Emplace.Scan
import Emplace.Reconciliation
import Emplace.Report
import Emplace.Params
import Emplace.Request
import Emplace.CommandLine
import Emplace.Yaml.Token
import Emplace.Yaml.Scalar.Plain
import Emplace.Yaml.Scalar.Quoted
import Emplace.Yaml.Scalar.Block
import Emplace.Number.Whole
import Emplace.Yaml.Token.Stream
import Emplace.Text.SixtyFour
import Emplace.Number.Decimal
import Emplace.Yaml.Numeral
import Emplace.Yaml.Node.Reading
import Emplace.Yaml.Content
import Emplace.Config
import Emplace.Text.Decoding
import Emplace.Compiler
import Emplace.Settings
import Emplace.Scratch
import Emplace.Log
import Emplace.Compilation
import Emplace.Command
import Emplace.Main
import Emplace.Proofs.Registry.Matching
import Emplace.Proofs.Registry.Finality
import Emplace.Proofs.Registry.Consistency
import Emplace.Proofs.Disk.Settling
import Emplace.Proofs.Disk.Calls
import Emplace.Proofs.Emission.Writing
import Emplace.Proofs.Emission.Containment
import Emplace.Proofs.Scan.Walking
import Emplace.Proofs.Scan.Mirroring
import Emplace.Proofs.Disk.Looking
import Emplace.Proofs.Disk.Apart
import Emplace.Proofs.Sorting
import Emplace.Proofs.Scan.Eligible
import Emplace.Proofs.Scan.Taking
import Emplace.Proofs.Path
import Emplace.Proofs.Emission.Placing
import Emplace.Proofs.Reconciliation.Judging
import Emplace.Proofs.Reconciliation.Outcome
import Emplace.Proofs.Emission.Ambiguity
import Emplace.Proofs.Reconciliation.Keeping
import Emplace.Proofs.Reconciliation.Refusing
import Emplace.Proofs.Compilation.Lifetime
import Emplace.Proofs.Disk.Making
import Emplace.Proofs.Disk.Rewriting
import Emplace.Proofs.Emission.Stopping
import Emplace.Proofs.Compilation.Stages
import Emplace.Proofs.Compilation.Reporting
import Emplace.Proofs.Scan.Retracing
import Emplace.Proofs.Emission.Repeating
import Emplace.Proofs.Reconciliation.Repeating
import Emplace.Proofs.Disk.Raising
import Emplace.Proofs.Disk.Reordered
import Emplace.Proofs.Params.Listing
import Emplace.Proofs.Params.Refusing
import Emplace.Proofs.Reconciliation.Declaring
import Emplace.Proofs.Scan.Accounting
import Emplace.Proofs.Digits
import Emplace.Proofs.Json.Quoting
import Emplace.Proofs.Json.Numbers
import Emplace.Proofs.Json.Reading
import Emplace.Proofs.Report.Counting
import Emplace.Proofs.Report.Summary
import Emplace.Proofs.Report.Accounting
import Emplace.Proofs.CommandLine.Tokens
import Emplace.Proofs.CommandLine.Requests
import Emplace.Proofs.Emission.Fitting
import Emplace.Proofs.Value.Merging
import Emplace.Proofs.Scan.Testing
import Emplace.Proofs.Settings
import Emplace.Proofs.Compilation.Serving
import Emplace.Proofs.Emission.Sourcing
import Emplace.Proofs.Text.Ends
import Emplace.Proofs.Invocation
import Emplace.Proofs.Number.Amount
import Emplace.Proofs.Value.Nested
import Emplace.Proofs.Path.Absolute

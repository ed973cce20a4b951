import Gauge.Collector
import Gauge.Configuration
import Gauge.Configuration.Export
import Gauge.Decimal.Dyadic
import Gauge.Decimal.Fixed
import Gauge.Decimal.Notation
import Gauge.Decimal.Reading
import Gauge.Decimal.Shortest
import Gauge.Display
import Gauge.Duration
import Gauge.Failure
import Gauge.Files
import Gauge.Instrument
import Gauge.Json.Basic
import Gauge.Json.Number
import Gauge.Main
import Gauge.Method
import Gauge.Named
import Gauge.Options.Basic
import Gauge.Options.Reader
import Gauge.Overrides
import Gauge.Pattern.Basic
import Gauge.Pattern.CharSet
import Gauge.Pattern.Reader
import Gauge.Program
import Gauge.Proofs.Named
import Gauge.Proofs.Stats.Welford
import Gauge.Proofs.Store.Archive
import Gauge.Proofs.Store.Frame
import Gauge.Proofs.Store.Series
import Gauge.Registry
import Gauge.Report.Export
import Gauge.Report.Format
import Gauge.Report.Human
import Gauge.Run.Basic
import Gauge.Run.Bracket
import Gauge.Run.Loop
import Gauge.Settings
import Gauge.Stats.Moments
import Gauge.Stats.Running
import Gauge.Stats.Summary
import Gauge.Store.Archive
import Gauge.Store.Frame
import Gauge.Store.LittleEndian
import Gauge.Store.Reader
import Gauge.Store.Sample
import Gauge.Store.Writer
import Gauge.Suite
import Gauge.Text.Alphabetic
import Gauge.Text.Blank
import Gauge.Text.CodePoints
import Gauge.Text.Fold
import Gauge.Text.Hexadecimal
import Gauge.Text.Lower
import Gauge.Text.Similarity
import Gauge.Text.Word
import Gauge.Throughput
import Gauge.TimeBound
import Gauge.Token
import Gauge.Toml.Basic
import Gauge.Toml.Number
import Gauge.Toml.Quoted
import Gauge.Toml.Reader
import Gauge.Workload
import Gauge.World
import Gauge.Proofs.Token.Cells
import Gauge.Proofs.Token.Tree
import Gauge.Proofs.Token.Exact
import Gauge.Proofs.Store.Ledger
import Gauge.Proofs.Store.Recovery
import Gauge.Proofs.Store.Faithful
import Gauge.Proofs.Run.Script
import Gauge.Proofs.Run.Bracket
import Gauge.Proofs.Run.Schedule
import Gauge.Proofs.Run.Cancellation
import Gauge.Proofs.Run.Convergence
import Gauge.Proofs.Run.History
import Gauge.Proofs.Run.Changes
import Gauge.Proofs.Run.Count
import Gauge.Proofs.Run.Finality
import Gauge.Proofs.Run.Aggregates
import Gauge.Proofs.Run.Provenance
import Gauge.Proofs.Run.Attribution
import Gauge.Proofs.Run.Success
import Gauge.Proofs.Suite.Method
import Gauge.Proofs.Suite.Protocol
import Gauge.Proofs.Suite.Reports
import Gauge.Proofs.Suite.Execution
import Gauge.Proofs.Suite.Cause
import Gauge.Proofs.Token.Reason
import Gauge.Proofs.Suite.Exchange
import Gauge.Proofs.Suite.Timed
import Gauge.Proofs.Suite.Deadline
import Gauge.Proofs.Suite.Passed
import Gauge.Proofs.Run.Phase
import Gauge.Proofs.Throughput
import Gauge.Proofs.Store.Damage
import Gauge.Proofs.Store.Release
import Gauge.Proofs.Binary64.Rounding
import Gauge.Proofs.Binary64.Model
import Gauge.Proofs.Binary64.Packing
import Gauge.Proofs.Binary64.Arithmetic
import Gauge.Proofs.Binary64.Comparison
import Gauge.Proofs.Stats.Accuracy
import Gauge.Proofs.Stats.Spread
import Gauge.Proofs.Run.Spread
import Gauge.Proofs.Registry
import Gauge.Proofs.Run.Construction
import Gauge.Proofs.Overrides
import Gauge.Proofs.Text.Letters
import Gauge.Proofs.Decimal.Literal
import Gauge.Proofs.Duration
import Gauge.Proofs.Configuration
import Gauge.Proofs.Instrument
import Gauge.Proofs.Plan

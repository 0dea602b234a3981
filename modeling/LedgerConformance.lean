import LedgerConformance.Benchmark.Ledger
import LedgerConformance.Benchmark.Pool
import LedgerConformance.Benchmark.Random
import LedgerConformance.Calendar.Date
import LedgerConformance.Calendar.Timestamp
import LedgerConformance.Case.Basic
import LedgerConformance.Case.Codec
import LedgerConformance.Catalogue.Basic
import LedgerConformance.Catalogue.Filter
import LedgerConformance.Catalogue.Load
import LedgerConformance.Command.Reading
import LedgerConformance.Command.Template
import LedgerConformance.Command.Tool
import LedgerConformance.CommandLine.CompareTools
import LedgerConformance.CommandLine.GenerateLedger
import LedgerConformance.CommandLine.LogFile
import LedgerConformance.CommandLine.Options
import LedgerConformance.CommandLine.Program
import LedgerConformance.CommandLine.RunCases
import LedgerConformance.CommandLine.Session
import LedgerConformance.CommandLine.ValidateLog
import LedgerConformance.Decimal.Binary64
import LedgerConformance.Decimal.Floating
import LedgerConformance.Decimal.Shortest
import LedgerConformance.Differential.Comparison
import LedgerConformance.Differential.Config
import LedgerConformance.Differential.Discovery
import LedgerConformance.Differential.Report
import LedgerConformance.Differential.Run
import LedgerConformance.Digest.Fnv
import LedgerConformance.Digest.Sha256
import LedgerConformance.Execution.Fault
import LedgerConformance.Execution.Input
import LedgerConformance.Execution.Reference
import LedgerConformance.Execution.Run
import LedgerConformance.Execution.Workers
import LedgerConformance.FileSystem.Changes
import LedgerConformance.FileSystem.Path
import LedgerConformance.FileSystem.Tree
import LedgerConformance.Json.Decode
import LedgerConformance.Json.Document
import LedgerConformance.Json.Number
import LedgerConformance.Json.Printer
import LedgerConformance.Json.Token
import LedgerConformance.Json.Value
import LedgerConformance.Ledger.Directive
import LedgerConformance.Ledger.Lifecycle
import LedgerConformance.Ledger.Name
import LedgerConformance.Ledger.Printer
import LedgerConformance.Ledger.Scan
import LedgerConformance.Ledger.Token
import LedgerConformance.Log.Buffer
import LedgerConformance.Log.Emitter
import LedgerConformance.Log.Entry
import LedgerConformance.Log.Validation
import LedgerConformance.Main
import LedgerConformance.Outcome
import LedgerConformance.Process.Launch
import LedgerConformance.Process.Signal
import LedgerConformance.Process.Task
import LedgerConformance.Process.World
import LedgerConformance.Program.Cat
import LedgerConformance.Program.Echo
import LedgerConformance.Program.Grep
import LedgerConformance.Program.Options
import LedgerConformance.Program.Printf
import LedgerConformance.Program.Sleep
import LedgerConformance.Program.Sort
import LedgerConformance.Program.Sort.Key
import LedgerConformance.Program.Table
import LedgerConformance.Proofs.Benchmark.Acceptance
import LedgerConformance.Proofs.Benchmark.Accounts
import LedgerConformance.Proofs.Benchmark.Draws
import LedgerConformance.Proofs.Benchmark.Lines
import LedgerConformance.Proofs.Benchmark.Shape
import LedgerConformance.Proofs.Benchmark.Stream
import LedgerConformance.Proofs.Calendar.DateForms
import LedgerConformance.Proofs.Calendar.DateShifts
import LedgerConformance.Proofs.Calendar.DateText
import LedgerConformance.Proofs.Calendar.DayNumber
import LedgerConformance.Proofs.Calendar.Successor
import LedgerConformance.Proofs.Calendar.Timestamps
import LedgerConformance.Proofs.Case.Codec
import LedgerConformance.Proofs.Catalogue.Loading
import LedgerConformance.Proofs.Command.Interpretation
import LedgerConformance.Proofs.Command.Outcomes
import LedgerConformance.Proofs.Command.Placeholders
import LedgerConformance.Proofs.CommandLine.FailFast
import LedgerConformance.Proofs.CommandLine.LogFiles
import LedgerConformance.Proofs.Decimal.Digits
import LedgerConformance.Proofs.Decimal.Durations
import LedgerConformance.Proofs.Differential.Accounting
import LedgerConformance.Proofs.Differential.Agreement
import LedgerConformance.Proofs.Differential.Codec
import LedgerConformance.Proofs.Differential.Discovery
import LedgerConformance.Proofs.Differential.Evidence
import LedgerConformance.Proofs.Differential.Normalization
import LedgerConformance.Proofs.Differential.Resolution
import LedgerConformance.Proofs.Execution.Parallel
import LedgerConformance.Proofs.Execution.Schedules
import LedgerConformance.Proofs.Execution.Timeout
import LedgerConformance.Proofs.FileSystem.EntryOrder
import LedgerConformance.Proofs.FileSystem.Files
import LedgerConformance.Proofs.FileSystem.Paths
import LedgerConformance.Proofs.FileSystem.Places
import LedgerConformance.Proofs.Json.Codec
import LedgerConformance.Proofs.Json.Fields
import LedgerConformance.Proofs.Json.Floats
import LedgerConformance.Proofs.Json.Numbers
import LedgerConformance.Proofs.Json.Records
import LedgerConformance.Proofs.Json.RoundTrip
import LedgerConformance.Proofs.Ledger.Accepted
import LedgerConformance.Proofs.Ledger.AccountRules
import LedgerConformance.Proofs.Ledger.Blocks
import LedgerConformance.Proofs.Ledger.BrokenBlocks
import LedgerConformance.Proofs.Ledger.Comments
import LedgerConformance.Proofs.Ledger.FindingLines
import LedgerConformance.Proofs.Ledger.Lifecycle
import LedgerConformance.Proofs.Ledger.LineEnds
import LedgerConformance.Proofs.Ledger.LineSteps
import LedgerConformance.Proofs.Ledger.OpenBlock
import LedgerConformance.Proofs.Ledger.Quoting
import LedgerConformance.Proofs.Ledger.Reading
import LedgerConformance.Proofs.Ledger.Register
import LedgerConformance.Proofs.Ledger.Renumbering
import LedgerConformance.Proofs.Ledger.Representation
import LedgerConformance.Proofs.Ledger.RoundTrip
import LedgerConformance.Proofs.Ledger.ScanLines
import LedgerConformance.Proofs.Ledger.TokenText
import LedgerConformance.Proofs.Ledger.WellFormed
import LedgerConformance.Proofs.Ledger.WordClasses
import LedgerConformance.Proofs.Log.Checked
import LedgerConformance.Proofs.Log.Entries
import LedgerConformance.Proofs.Log.Exact
import LedgerConformance.Proofs.Log.Lines
import LedgerConformance.Proofs.Log.Numbering
import LedgerConformance.Proofs.Query.Grammar
import LedgerConformance.Proofs.Query.Layouts
import LedgerConformance.Proofs.Query.RoundTrip
import LedgerConformance.Proofs.Query.Selection
import LedgerConformance.Proofs.Report.Messages
import LedgerConformance.Proofs.Report.TapLines
import LedgerConformance.Proofs.Steps
import LedgerConformance.Proofs.Text.LetterCase
import LedgerConformance.Proofs.Text.Occurrence
import LedgerConformance.Proofs.Text.Pieces
import LedgerConformance.Proofs.Text.Replacement
import LedgerConformance.Proofs.Text.SmallForms
import LedgerConformance.Proofs.Text.Trimming
import LedgerConformance.Proofs.Verdict.FirstBreach
import LedgerConformance.Proofs.Verdict.Needles
import LedgerConformance.Query.Printer
import LedgerConformance.Query.Statement
import LedgerConformance.Query.Table
import LedgerConformance.Query.Token
import LedgerConformance.Regex.Basic
import LedgerConformance.Regex.Parser
import LedgerConformance.Report.Document
import LedgerConformance.Report.Tap
import LedgerConformance.Result
import LedgerConformance.Shell.Arithmetic
import LedgerConformance.Shell.Builtin.Basic
import LedgerConformance.Shell.Builtin.Commands
import LedgerConformance.Shell.Builtin.Control
import LedgerConformance.Shell.Builtin.Echo
import LedgerConformance.Shell.Builtin.Jobs
import LedgerConformance.Shell.Builtin.Printf
import LedgerConformance.Shell.Builtin.Test
import LedgerConformance.Shell.Builtin.Variables
import LedgerConformance.Shell.Evaluate
import LedgerConformance.Shell.Expansion
import LedgerConformance.Shell.Fields
import LedgerConformance.Shell.Lookup
import LedgerConformance.Shell.Parser
import LedgerConformance.Shell.Pattern
import LedgerConformance.Shell.Reader
import LedgerConformance.Shell.Redirection
import LedgerConformance.Shell.Script
import LedgerConformance.Shell.Start
import LedgerConformance.Shell.State
import LedgerConformance.Shell.Syntax
import LedgerConformance.Shell.Words
import LedgerConformance.Text.Blank
import LedgerConformance.Text.Cased
import LedgerConformance.Text.Conversion
import LedgerConformance.Text.Lines
import LedgerConformance.Text.Lowercase
import LedgerConformance.Text.NameSet
import LedgerConformance.Text.Numeral
import LedgerConformance.Text.Quotation
import LedgerConformance.Text.Quoted
import LedgerConformance.Text.Raw
import LedgerConformance.Text.Substring
import LedgerConformance.Text.Utf8
import LedgerConformance.Text.Version
import LedgerConformance.Verdict

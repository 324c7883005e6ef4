import BenchPrinter.Number.Quantity
import BenchPrinter.Number.Shortest
import BenchPrinter.Text.Blank
import BenchPrinter.Text.Digit
import BenchPrinter.Text.Utf8
import BenchPrinter.Printer.State
import BenchPrinter.Thermal.Model
import BenchPrinter.Thermal.Generator
import BenchPrinter.Clock
import BenchPrinter.Failure
import BenchPrinter.Command.Word
import BenchPrinter.Command.Table
import BenchPrinter.Report.Texts
import BenchPrinter.Report.Probing
import BenchPrinter.Board.Run
import BenchPrinter.Link.Device
import BenchPrinter.Link.LineBuffer
import BenchPrinter.Link.Memory
import BenchPrinter.Link.Serial
import BenchPrinter.Link.Stream
import BenchPrinter.Link.Rehearsal
import BenchPrinter.Session
import BenchPrinter.Document.Json.Reader
import BenchPrinter.Document.Json.Writer
import BenchPrinter.Document.Toml.Text
import BenchPrinter.Document.Toml.Key
import BenchPrinter.Document.Toml.Moment
import BenchPrinter.Document.Toml.Number
import BenchPrinter.Document.Toml.Reader
import BenchPrinter.Document.Toml.Writer
import BenchPrinter.Document.Values
import BenchPrinter.Files.Path
import BenchPrinter.Files.Store
import BenchPrinter.Settings.Basic
import BenchPrinter.Settings.Check
import BenchPrinter.Settings.Document
import BenchPrinter.Settings.Overrides
import BenchPrinter.Link.Port
import BenchPrinter.Settings.File
import BenchPrinter.Bench
import BenchPrinter.CommandLine.Arguments
import BenchPrinter.CommandLine.Errand
import BenchPrinter.Main
import BenchPrinter.Proofs.Patience
import BenchPrinter.Proofs.Upkeep
import BenchPrinter.Proofs.Interruption
import BenchPrinter.Proofs.Truncation
import BenchPrinter.Proofs.Waiting
import BenchPrinter.Proofs.Motion
import BenchPrinter.Proofs.Convergence
import BenchPrinter.Proofs.Double.Rounding
import BenchPrinter.Proofs.Double.Worth
import BenchPrinter.Proofs.Double.Nearest
import BenchPrinter.Proofs.Double.Arithmetic
import BenchPrinter.Proofs.Double.Numerals
import BenchPrinter.Proofs.Drift
import BenchPrinter.Proofs.Preservation
import BenchPrinter.Proofs.Sound
import BenchPrinter.Proofs.Band
import BenchPrinter.Proofs.Stranding
import BenchPrinter.Proofs.Answering
import BenchPrinter.Proofs.Holding
import BenchPrinter.Proofs.Beginning
import BenchPrinter.Proofs.Planning
import BenchPrinter.Proofs.Travel
import BenchPrinter.Proofs.Numbering
import BenchPrinter.Proofs.Reporting
import BenchPrinter.Proofs.Acknowledgement
import BenchPrinter.Proofs.Course
import BenchPrinter.Proofs.Attendance
import BenchPrinter.Proofs.Streaming
import BenchPrinter.Proofs.Footprint
import BenchPrinter.Proofs.Promptness
import BenchPrinter.Proofs.Isolation
import BenchPrinter.Proofs.Script
import BenchPrinter.Proofs.Ledger
import BenchPrinter.Proofs.Halting
import BenchPrinter.Proofs.Timestamps
import BenchPrinter.Proofs.Preparation
import BenchPrinter.Proofs.Sending
import BenchPrinter.Proofs.Saving
import BenchPrinter.Proofs.Progress
import BenchPrinter.Proofs.Rounds
import BenchPrinter.Proofs.Timekeeping
import BenchPrinter.Proofs.Polling
import BenchPrinter.Proofs.Extraction
import BenchPrinter.Proofs.Readout
import BenchPrinter.Proofs.Decoding
import BenchPrinter.Proofs.Framing
import BenchPrinter.Proofs.Tandem
import BenchPrinter.Proofs.Retrying
import BenchPrinter.Proofs.Undefined
import BenchPrinter.Proofs.Acceptance
import BenchPrinter.Proofs.Document.Json.Grammar
import BenchPrinter.Proofs.Overlay

import Peephole.Analysis.Basic
import Peephole.Analysis.Clifford
import Peephole.Analysis.Document
import Peephole.Analysis.Interaction
import Peephole.Circuit.Basic
import Peephole.Circuit.Builder
import Peephole.Circuit.Document
import Peephole.Command.Options
import Peephole.Command.Run
import Peephole.Compilation
import Peephole.Cost.Basic
import Peephole.Cost.Document
import Peephole.Datum.Basic
import Peephole.Datum.Literal
import Peephole.Datum.Path
import Peephole.Datum.Reader
import Peephole.Datum.Repetition
import Peephole.Device.Basic
import Peephole.Device.Calibration
import Peephole.Device.Document
import Peephole.Device.Preset
import Peephole.Device.Query
import Peephole.Device.Request
import Peephole.Device.Rule
import Peephole.Fault
import Peephole.Files.Path
import Peephole.Files.Tree
import Peephole.Gate.Basic
import Peephole.Gate.Document
import Peephole.Gate.Kind
import Peephole.Json.Options
import Peephole.Json.Reader
import Peephole.Json.Writer
import Peephole.Main
import Peephole.Number.Binary64
import Peephole.Number.Decimal
import Peephole.Number.Exact
import Peephole.Number.Power
import Peephole.Number.Reading
import Peephole.Number.Scan
import Peephole.Number.Word
import Peephole.Optimizer.Basic
import Peephole.Optimizer.Selection
import Peephole.Program.Angle
import Peephole.Program.Basic
import Peephole.Program.Document
import Peephole.Program.Printer
import Peephole.Program.Reader
import Peephole.Program.Source
import Peephole.Program.Statement
import Peephole.Program.Token
import Peephole.Proofs.Analysis.Clifford
import Peephole.Proofs.Analysis.Figures
import Peephole.Proofs.Analysis.Grouping
import Peephole.Proofs.Analysis.Interaction
import Peephole.Proofs.Circuit.Batch
import Peephole.Proofs.Circuit.Building
import Peephole.Proofs.Circuit.Composition
import Peephole.Proofs.Circuit.Document
import Peephole.Proofs.Circuit.Figures
import Peephole.Proofs.Circuit.Inference
import Peephole.Proofs.Circuit.Reversal
import Peephole.Proofs.Circuit.Soundness
import Peephole.Proofs.Command.Delivery
import Peephole.Proofs.Command.Desk
import Peephole.Proofs.Compilation.Cost
import Peephole.Proofs.Compilation.Duration
import Peephole.Proofs.Compilation.Removal
import Peephole.Proofs.Cost.Duration
import Peephole.Proofs.Cost.Exact
import Peephole.Proofs.Cost.Permutation
import Peephole.Proofs.Cost.Thinning
import Peephole.Proofs.Datum.Identity
import Peephole.Proofs.Datum.Reading
import Peephole.Proofs.Device.Calibrated
import Peephole.Proofs.Device.Coupling
import Peephole.Proofs.Device.Document
import Peephole.Proofs.Device.Lattice
import Peephole.Proofs.Device.Lookup
import Peephole.Proofs.Files.Path
import Peephole.Proofs.Files.Tree
import Peephole.Proofs.Gate.Document
import Peephole.Proofs.Gate.Interleaving
import Peephole.Proofs.Gate.Inverse
import Peephole.Proofs.Gate.Kind
import Peephole.Proofs.Gate.Neighbours
import Peephole.Proofs.Gate.Overlap
import Peephole.Proofs.Gate.Thinning
import Peephole.Proofs.Number.Difference
import Peephole.Proofs.Number.Double
import Peephole.Proofs.Number.Nearest
import Peephole.Proofs.Number.Numeral
import Peephole.Proofs.Number.Order
import Peephole.Proofs.Number.Position
import Peephole.Proofs.Number.Quotient
import Peephole.Proofs.Number.Real
import Peephole.Proofs.Number.Rounding
import Peephole.Proofs.Optimizer.Drift
import Peephole.Proofs.Optimizer.FixedPoint
import Peephole.Proofs.Optimizer.Interleaving
import Peephole.Proofs.Optimizer.Meaning
import Peephole.Proofs.Optimizer.Mirror
import Peephole.Proofs.Optimizer.Records
import Peephole.Proofs.Optimizer.Rounds
import Peephole.Proofs.Program.Exchange
import Peephole.Proofs.QubitGraph.Components
import Peephole.Proofs.QubitGraph.Distance
import Peephole.Proofs.QubitGraph.Edges
import Peephole.Proofs.QubitGraph.Lattice
import Peephole.Proofs.Reduction.Cancellation
import Peephole.Proofs.Reduction.Confluence
import Peephole.Proofs.Reduction.Links
import Peephole.Proofs.Reduction.Merging
import Peephole.Proofs.Reduction.Opposites
import Peephole.Proofs.Reduction.Pairs
import Peephole.Proofs.Reduction.Passes
import Peephole.Proofs.Reduction.Rewriting
import Peephole.Proofs.Reduction.Runs
import Peephole.Proofs.Reduction.Undoing
import Peephole.Proofs.Schedule.Composition
import Peephole.Proofs.Schedule.CriticalPath
import Peephole.Proofs.Schedule.Duration
import Peephole.Proofs.Schedule.Layers
import Peephole.Proofs.Schedule.Numbering
import Peephole.Proofs.Schedule.Reversal
import Peephole.Proofs.Schedule.Thinning
import Peephole.Proofs.Schedule.Usage
import Peephole.Proofs.Session.Document
import Peephole.Proofs.Session.History
import Peephole.Proofs.Session.Reachable
import Peephole.Proofs.Text.Case
import Peephole.Proofs.Text.Encoding
import Peephole.QubitGraph
import Peephole.Reduction.Cancellation
import Peephole.Reduction.Merging
import Peephole.Reduction.Pass
import Peephole.Schedule
import Peephole.Schedule.Document
import Peephole.Session.Basic
import Peephole.Session.Deed
import Peephole.Session.Method
import Peephole.Session.Step
import Peephole.Settings.Basic
import Peephole.Settings.Environment
import Peephole.Text.Blank
import Peephole.Text.Case
import Peephole.Text.CodePoint
import Peephole.Text.Digit
import Peephole.Text.Encoding
import Peephole.Text.Printable
import Peephole.Text.Quoted
import Peephole.Text.Scan

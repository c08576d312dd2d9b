import LatencyHiding.Async.Occupancy
import LatencyHiding.Async.Resource
import LatencyHiding.Async.Tracker
import LatencyHiding.Buffer.Aliasing
import LatencyHiding.Buffer.LiveSet
import LatencyHiding.Buffer.Pressure
import LatencyHiding.Buffer.Replay
import LatencyHiding.Bytes
import LatencyHiding.CommandLine
import LatencyHiding.Cost.Estimator
import LatencyHiding.Cost.Profile
import LatencyHiding.Decimal.Positional
import LatencyHiding.Decimal.Reading
import LatencyHiding.Decimal.Shortest
import LatencyHiding.Dependence.Basic
import LatencyHiding.Dependence.Build
import LatencyHiding.Dependence.Depth
import LatencyHiding.Digest.Blake3
import LatencyHiding.Digraph
import LatencyHiding.Document.Basic
import LatencyHiding.Document.Json
import LatencyHiding.Document.Section
import LatencyHiding.Document.Toml.Definition
import LatencyHiding.Document.Toml.Scalar
import LatencyHiding.Document.Toml.Text
import LatencyHiding.Engine.Basic
import LatencyHiding.Engine.Module
import LatencyHiding.Fault
import LatencyHiding.Floating
import LatencyHiding.KeyedList
import LatencyHiding.ListSchedule.Basic
import LatencyHiding.ListSchedule.Candidate
import LatencyHiding.ListSchedule.Selection
import LatencyHiding.ListSchedule.State
import LatencyHiding.Main
import LatencyHiding.ModuleFile.Basic
import LatencyHiding.ModuleFile.Declaration
import LatencyHiding.ModuleFile.Loading
import LatencyHiding.ModuleFile.Reading
import LatencyHiding.Pass
import LatencyHiding.Pattern.Automaton
import LatencyHiding.Pattern.Basic
import LatencyHiding.Pattern.Cursor
import LatencyHiding.Pattern.Escape
import LatencyHiding.Pattern.Footprint
import LatencyHiding.Pattern.Reading
import LatencyHiding.Pattern.SetReading
import LatencyHiding.Pattern.Switches
import LatencyHiding.Program.Computation
import LatencyHiding.Program.Draft
import LatencyHiding.Program.Instruction
import LatencyHiding.Program.Module
import LatencyHiding.Program.Opcode
import LatencyHiding.Program.Order
import LatencyHiding.Program.Shape
import LatencyHiding.Proofs.Async.Counts
import LatencyHiding.Proofs.Async.Memo
import LatencyHiding.Proofs.Async.Overflow
import LatencyHiding.Proofs.Async.Pairing
import LatencyHiding.Proofs.Async.Recall
import LatencyHiding.Proofs.Async.Uses
import LatencyHiding.Proofs.Buffer.Accounting
import LatencyHiding.Proofs.Buffer.CallVolume
import LatencyHiding.Proofs.Buffer.Checked
import LatencyHiding.Proofs.Buffer.ClosedForm
import LatencyHiding.Proofs.Buffer.Estimates
import LatencyHiding.Proofs.Buffer.Liveness
import LatencyHiding.Proofs.Buffer.Origins
import LatencyHiding.Proofs.Buffer.OutputShapes
import LatencyHiding.Proofs.Dependence.Alike
import LatencyHiding.Proofs.Dependence.Construction
import LatencyHiding.Proofs.Dependence.Content
import LatencyHiding.Proofs.Dependence.Cycles
import LatencyHiding.Proofs.Dependence.Depths
import LatencyHiding.Proofs.Dependence.LongestPaths
import LatencyHiding.Proofs.Dependence.Neighbours
import LatencyHiding.Proofs.Dependence.WellFormed
import LatencyHiding.Proofs.Digraph.DepthFirst
import LatencyHiding.Proofs.Digraph.TopologicalOrder
import LatencyHiding.Proofs.Engine.Passes
import LatencyHiding.Proofs.Engine.Schedule
import LatencyHiding.Proofs.Engine.Yields
import LatencyHiding.Proofs.Fingerprint
import LatencyHiding.Proofs.Floating.Emission
import LatencyHiding.Proofs.Floating.Extent
import LatencyHiding.Proofs.Floating.Gaps
import LatencyHiding.Proofs.Floating.Order
import LatencyHiding.Proofs.Floating.Rounds
import LatencyHiding.Proofs.KeyedList
import LatencyHiding.Proofs.ListSchedule.Bookkeeping
import LatencyHiding.Proofs.ListSchedule.Choice
import LatencyHiding.Proofs.ListSchedule.Completion
import LatencyHiding.Proofs.ListSchedule.Greatest
import LatencyHiding.Proofs.ListSchedule.History
import LatencyHiding.Proofs.ListSchedule.Limits
import LatencyHiding.Proofs.ListSchedule.Placement
import LatencyHiding.Proofs.ListSchedule.Progress
import LatencyHiding.Proofs.ListSchedule.Rescheduling
import LatencyHiding.Proofs.ListSchedule.Resources
import LatencyHiding.Proofs.ListSchedule.Room
import LatencyHiding.Proofs.ListSchedule.StartTimes
import LatencyHiding.Proofs.ListSchedule.Timeline
import LatencyHiding.Proofs.ModuleFile.Acceptance
import LatencyHiding.Proofs.ModuleFile.Building
import LatencyHiding.Proofs.ModuleFile.Fidelity
import LatencyHiding.Proofs.Pass.CalleePeaks
import LatencyHiding.Proofs.Pass.DeviceMemory
import LatencyHiding.Proofs.Pass.InputOrder
import LatencyHiding.Proofs.Pass.Memory
import LatencyHiding.Proofs.Pass.Planning
import LatencyHiding.Proofs.Pass.Rerun
import LatencyHiding.Proofs.Pass.Session
import LatencyHiding.Proofs.Program.Assembly
import LatencyHiding.Proofs.Program.CallDepth
import LatencyHiding.Proofs.Program.CallStack
import LatencyHiding.Proofs.Program.CalleeFirst
import LatencyHiding.Proofs.Program.Drafts
import LatencyHiding.Proofs.Program.Precedence
import LatencyHiding.Proofs.Program.Wiring
import LatencyHiding.Proofs.Range
import LatencyHiding.Proofs.TimeScale.Binary64
import LatencyHiding.Proofs.Timing
import LatencyHiding.Proofs.Traversal
import LatencyHiding.Report
import LatencyHiding.Session
import LatencyHiding.Settings
import LatencyHiding.Text.Blank
import LatencyHiding.Text.CaseFold
import LatencyHiding.Text.CaseTable
import LatencyHiding.Text.CategoryTable
import LatencyHiding.Text.Hex
import LatencyHiding.Text.Lowercase
import LatencyHiding.Text.Property
import LatencyHiding.Text.Ranges
import LatencyHiding.Text.ScriptTable
import LatencyHiding.Text.TraitTable
import LatencyHiding.TimeScale
import LatencyHiding.Timing

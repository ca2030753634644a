import Flowgraph.Binding.Bind
import Flowgraph.Binding.Coerce
import Flowgraph.Binding.Format
import Flowgraph.Binding.Kind
import Flowgraph.Binding.Repair
import Flowgraph.Catalog
import Flowgraph.CommandLine.Arguments
import Flowgraph.CommandLine.Report
import Flowgraph.Document.Basic
import Flowgraph.Document.View
import Flowgraph.Error
import Flowgraph.Event.Basic
import Flowgraph.Event.Bus
import Flowgraph.Event.Format
import Flowgraph.Function.Basic
import Flowgraph.Function.Flow
import Flowgraph.Function.Registry
import Flowgraph.Function.Script
import Flowgraph.Function.Standard
import Flowgraph.Graph.Basic
import Flowgraph.Graph.Cycle
import Flowgraph.Json.Form
import Flowgraph.Json.Numeral
import Flowgraph.Json.Printer
import Flowgraph.Json.Reader
import Flowgraph.Json.Record
import Flowgraph.Json.Tree
import Flowgraph.Json.Value
import Flowgraph.Main
import Flowgraph.Number.Basic
import Flowgraph.Number.Binary
import Flowgraph.Number.FloatText
import Flowgraph.Number.Reading
import Flowgraph.Number.Shortest
import Flowgraph.Path
import Flowgraph.Proofs.Graph.Wiring
import Flowgraph.Proofs.Run.Attended
import Flowgraph.Proofs.Run.Coverage
import Flowgraph.Proofs.Run.Deeds
import Flowgraph.Proofs.Run.Feeding
import Flowgraph.Proofs.Run.Frame
import Flowgraph.Proofs.Run.History
import Flowgraph.Proofs.Run.Memo
import Flowgraph.Proofs.Run.Once
import Flowgraph.Proofs.Run.Spread
import Flowgraph.Proofs.Run.Isolation
import Flowgraph.Proofs.Run.Settled
import Flowgraph.Proofs.Run.Standing
import Flowgraph.Proofs.Run.Transition
import Flowgraph.Run.Drive
import Flowgraph.Run.Exchange
import Flowgraph.Run.Inputs
import Flowgraph.Run.Machine
import Flowgraph.Run.Shared
import Flowgraph.Run.Step
import Flowgraph.Template.Basic
import Flowgraph.Template.Filter
import Flowgraph.Template.Pipeline
import Flowgraph.Template.Render
import Flowgraph.Template.Token
import Flowgraph.Text.Blank
import Flowgraph.Text.Case
import Flowgraph.Text.CaseTable
import Flowgraph.Text.Cut
import Flowgraph.Text.HiddenTable
import Flowgraph.Text.Letter
import Flowgraph.Text.LetterTable
import Flowgraph.Text.Quoted
import Flowgraph.Time.Calendar
import Flowgraph.Time.Instant
import Flowgraph.Uuid
import Flowgraph.Workflow.Basic
import Flowgraph.Workflow.Format
import Flowgraph.Proofs.Run.Executed
import Flowgraph.Proofs.Run.Evaluation
import Flowgraph.Proofs.Run.Faithful
import Flowgraph.Proofs.Run.Dataflow
import Flowgraph.Proofs.Run.Progress
import Flowgraph.Proofs.Document.Writing
import Flowgraph.Proofs.Run.Places
import Flowgraph.Proofs.Run.Namespaces
import Flowgraph.Proofs.Run.Published
import Flowgraph.Proofs.Run.Ports
import Flowgraph.Proofs.Run.Fires
import Flowgraph.Proofs.Run.Tidy
import Flowgraph.Proofs.Run.Descent
import Flowgraph.Proofs.Run.Fair
import Flowgraph.Proofs.Run.Lifecycle
import Flowgraph.Proofs.Run.Presence
import Flowgraph.Proofs.Run.Contained
import Flowgraph.Proofs.Run.Waiting
import Flowgraph.Proofs.Run.Returning
import Flowgraph.Proofs.Run.Session
import Flowgraph.Proofs.Run.Rerun
import Flowgraph.Proofs.Run.Overlap
import Flowgraph.Proofs.Run.Snapshot
import Flowgraph.Proofs.Graph.Building
import Flowgraph.Proofs.Run.Settling
import Flowgraph.Proofs.Run.Envelope
import Flowgraph.Proofs.Run.Shapes
import Flowgraph.Proofs.Json.Nesting
import Flowgraph.Proofs.Json.Layout
import Flowgraph.Proofs.Json.Numerals
import Flowgraph.Proofs.Json.Identifiers
import Flowgraph.Proofs.Json.Values
import Flowgraph.Proofs.Json.Records
import Flowgraph.Proofs.Json.Edits
import Flowgraph.Proofs.Workflow.ReadBack
import Flowgraph.Proofs.Workflow.Edits
import Flowgraph.Proofs.Event.ReadBack
import Flowgraph.Proofs.Persisted
import Flowgraph.Proofs.Graph.Search
import Flowgraph.Proofs.Graph.DataCycles
import Flowgraph.Proofs.Document.Setting
import Flowgraph.Proofs.Document.Checking
import Flowgraph.Proofs.Run.Yields
import Flowgraph.Proofs.Catalog
import Flowgraph.Proofs.Document.Paths
import Flowgraph.Proofs.Document.Merging
import Flowgraph.Proofs.Document.Removing
import Flowgraph.Proofs.Document.Spelling
import Flowgraph.Proofs.Template.Offsets
import Flowgraph.Proofs.Template.Composition
import Flowgraph.Proofs.Template.Grammar
import Flowgraph.Proofs.Template.Tags
import Flowgraph.Proofs.Template.Literals
import Flowgraph.Proofs.Template.Positions
import Flowgraph.Proofs.Binding.Arguments
import Flowgraph.Proofs.Json.Depth
import Flowgraph.Proofs.Json.Turns
import Flowgraph.Proofs.Binding.Pieces
import Flowgraph.Proofs.Binding.Repair
import Flowgraph.Proofs.Binding.Mapping
import Flowgraph.Proofs.Binding.Legible
import Flowgraph.Proofs.Run.Performance
import Flowgraph.Proofs.Run.Performing
import Flowgraph.Proofs.Run.Rounds
import Flowgraph.Proofs.Run.Looping

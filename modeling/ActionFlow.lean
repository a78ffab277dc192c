import ActionFlow.Text.Ranges
import ActionFlow.Text.Blank
import ActionFlow.Text.CaseTable
import ActionFlow.Text.EscapeTable
import ActionFlow.Text.Lowercase
import ActionFlow.Text.Quoted
import ActionFlow.Text.Base64
import ActionFlow.Entries
import ActionFlow.Decimal.Binary
import ActionFlow.Decimal.Shortest
import ActionFlow.Decimal.Layout
import ActionFlow.Decimal.Reading
import ActionFlow.Json.Basic
import ActionFlow.Json.Printer
import ActionFlow.Document.Draft
import ActionFlow.Document.Scalar
import ActionFlow.Document.Shape
import ActionFlow.Document.Size
import ActionFlow.Json.Literal
import ActionFlow.Json.Parser
import ActionFlow.Path
import ActionFlow.Stage
import ActionFlow.Range
import ActionFlow.Value.Basic
import ActionFlow.Value.Lookup
import ActionFlow.Value.Json
import ActionFlow.Value.Conversion
import ActionFlow.Fault.Basic
import ActionFlow.Fault.Engine
import ActionFlow.Value.Writing
import ActionFlow.Record.Basic
import ActionFlow.Record.Json
import ActionFlow.Record.Snapshot
import ActionFlow.Context
import ActionFlow.Provider.Resolution
import ActionFlow.Provider.Operator
import ActionFlow.Provider.Basic
import ActionFlow.Provider.Form
import ActionFlow.Action.Basic
import ActionFlow.Action.Step
import ActionFlow.Action.Frame
import ActionFlow.Action.Lifecycle
import ActionFlow.Action.Logic
import ActionFlow.Action.Iteration
import ActionFlow.Action.Parallel
import ActionFlow.Action.Run
import ActionFlow.Outcome
import ActionFlow.Definition.Basic
import ActionFlow.Definition.Reading
import ActionFlow.Definition.Size
import ActionFlow.Definition.Registry
import ActionFlow.Definition.Build
import ActionFlow.Yaml.Cursor
import ActionFlow.Yaml.Plain
import ActionFlow.Yaml.Quoted
import ActionFlow.Yaml.Block
import ActionFlow.Yaml.Token
import ActionFlow.Yaml.Document
import ActionFlow.Definition.Load
import ActionFlow.Folder
import ActionFlow.CommandLine
import ActionFlow.Text.Timestamp
import ActionFlow.Main
import ActionFlow.Proofs.Steps
import ActionFlow.Proofs.Course
import ActionFlow.Proofs.Members
import ActionFlow.Proofs.Handling
import ActionFlow.Proofs.Calm
import ActionFlow.Proofs.Escape
import ActionFlow.Proofs.Replay
import ActionFlow.Proofs.Publication
import ActionFlow.Proofs.Traces
import ActionFlow.Proofs.Written
import ActionFlow.Proofs.CurrentItem
import ActionFlow.Proofs.Equality
import ActionFlow.Proofs.Independence
import ActionFlow.Proofs.Assignments
import ActionFlow.Proofs.InPlace
import ActionFlow.Proofs.Updates
import ActionFlow.Proofs.Places
import ActionFlow.Proofs.Cancellation
import ActionFlow.Proofs.Closing
import ActionFlow.Proofs.Turns
import ActionFlow.Proofs.TurnRules
import ActionFlow.Proofs.Visibility
import ActionFlow.Proofs.DirectRun
import ActionFlow.Proofs.SideBySide
import ActionFlow.Proofs.RepeatedKeys
import ActionFlow.Proofs.Building
import ActionFlow.Proofs.Mirroring
import ActionFlow.Proofs.ReadingRule
import ActionFlow.Proofs.RunConditions
import ActionFlow.Proofs.DistinctKeys
import ActionFlow.Proofs.Orderly
import ActionFlow.Proofs.WrittenBack
import ActionFlow.Proofs.SoundRuns
import ActionFlow.Proofs.SoundTurns
import ActionFlow.Proofs.PathText
import ActionFlow.Proofs.JsonView
import ActionFlow.Proofs.Forms
import ActionFlow.Proofs.CalmReadings
import ActionFlow.Proofs.DirectReadings
import ActionFlow.Proofs.Lookups
import ActionFlow.Proofs.ValidFaults
import ActionFlow.Proofs.Exits
import ActionFlow.Proofs.Tours
import ActionFlow.Proofs.Decisions
import ActionFlow.Proofs.Selection
import ActionFlow.Proofs.Sequences
import ActionFlow.Proofs.Histories
import ActionFlow.Proofs.Restarts
import ActionFlow.Proofs.Descent
import ActionFlow.Proofs.TurnEndings
import ActionFlow.Proofs.ErrorActions
import ActionFlow.Proofs.ExactDoubles
import ActionFlow.Proofs.JoinedConditions
import ActionFlow.Proofs.RoundedIntegers
import ActionFlow.Proofs.IntegerReadings
import ActionFlow.Proofs.Magnitudes
import ActionFlow.Proofs.NumberOrder
import ActionFlow.Proofs.SameValues
import ActionFlow.Proofs.Snapshots
import ActionFlow.Proofs.ReadOnly

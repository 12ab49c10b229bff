import StagePipeline.Binary64
import StagePipeline.Coordinator
import StagePipeline.Counted
import StagePipeline.Decimal.Literal
import StagePipeline.Decimal.Shortest
import StagePipeline.Entries
import StagePipeline.Fault
import StagePipeline.Json
import StagePipeline.Json.Codec
import StagePipeline.Json.Fields
import StagePipeline.Json.Reader
import StagePipeline.Pipeline
import StagePipeline.Proofs.Coordinator
import StagePipeline.Proofs.Run.Course
import StagePipeline.Proofs.Run.Effort
import StagePipeline.Proofs.Run.Errand
import StagePipeline.Proofs.Run.Itinerary
import StagePipeline.Proofs.Run.Moves
import StagePipeline.Proofs.Run.Progress
import StagePipeline.Proofs.Run.Refinement
import StagePipeline.Proofs.Worker.Account
import StagePipeline.Proofs.Worker.Backlog
import StagePipeline.Proofs.Worker.Collection
import StagePipeline.Proofs.Worker.Wait
import StagePipeline.Proofs.Worker.Moves
import StagePipeline.Proofs.Worker.Schedule
import StagePipeline.Proofs.Worker.Receipts
import StagePipeline.Record
import StagePipeline.Report
import StagePipeline.Run
import StagePipeline.Run.Sequential
import StagePipeline.RunId
import StagePipeline.Settings
import StagePipeline.Settings.Document
import StagePipeline.Settings.KeyPath
import StagePipeline.Settings.Layers
import StagePipeline.Settings.Library
import StagePipeline.Settings.Value
import StagePipeline.Stage
import StagePipeline.Summary
import StagePipeline.Text.Blank
import StagePipeline.Text.Hexadecimal
import StagePipeline.Time.Duration
import StagePipeline.Time.Timestamp
import StagePipeline.Toml
import StagePipeline.Toml.Document
import StagePipeline.Toml.Moment
import StagePipeline.Toml.Scalar
import StagePipeline.Toml.Tree
import StagePipeline.Word
import StagePipeline.Worker
import StagePipeline.Worker.Schedule
import StagePipeline.Proofs.Binary64.Order
import StagePipeline.Proofs.Binary64.Extremes
import StagePipeline.Proofs.Summary
import StagePipeline.Proofs.Stage
import StagePipeline.Proofs.Arrangement
import StagePipeline.Proofs.Pipeline
import StagePipeline.Proofs.Worker.Sequence
import StagePipeline.Proofs.Worker.Acceptance
import StagePipeline.Proofs.Run.Acceptance
import StagePipeline.Proofs.Worker.Overlap
import StagePipeline.Proofs.Chunks
import StagePipeline.Proofs.BatchSize
import StagePipeline.Proofs.Run.Standing
import StagePipeline.Proofs.Run.Unobserved
import StagePipeline.Proofs.Answers
import StagePipeline.Proofs.Conservation
import StagePipeline.Proofs.Observation
import StagePipeline.Proofs.Attribution
import StagePipeline.Session
import StagePipeline.Proofs.Session
import StagePipeline.Proofs.Worker.Retirement
import StagePipeline.Proofs.Worker.Departure
import StagePipeline.Proofs.Run.Counters
import StagePipeline.Proofs.Run.Counted
import StagePipeline.Proofs.Run.Retirement
import StagePipeline.Proofs.Unwinding
import StagePipeline.Proofs.Routing
import StagePipeline.Proofs.Rearrangement
import StagePipeline.Proofs.Settings.Bounds
import StagePipeline.Proofs.Settings.Library
import StagePipeline.Proofs.Settings.Layers
import StagePipeline.Proofs.Settings.Sources
import StagePipeline.Proofs.RunId
import StagePipeline.Proofs.Codec
import StagePipeline.Proofs.Transmission
import StagePipeline.Proofs.Toml.Tables
import StagePipeline.Proofs.Settings.Agreement
import StagePipeline.Proofs.Settings.Variables
import StagePipeline.Proofs.Binary64.Rounding
import StagePipeline.Proofs.Binary64.Sums
import StagePipeline.Proofs.Numbers
import StagePipeline.Proofs.ReadBack
import StagePipeline.Proofs.FirstOffender
import StagePipeline.Proofs.Partition
import StagePipeline.Proofs.Totals
import StagePipeline.Proofs.Bounds
import StagePipeline.Proofs.StageList
import StagePipeline.Proofs.Gates
import StagePipeline.Proofs.Binary64.Exact
import StagePipeline.Proofs.Binary64.Nearest
import StagePipeline.Proofs.Decimal.Magnitude
import StagePipeline.Proofs.Decimal.Spelling
import StagePipeline.Proofs.NumberText

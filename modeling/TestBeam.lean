import TestBeam.Artifact
import TestBeam.Bus
import TestBeam.CommandLine.Arguments
import TestBeam.CommandLine.Response
import TestBeam.Configuration.Basic
import TestBeam.Configuration.Document
import TestBeam.Configuration.Error
import TestBeam.Configuration.Override
import TestBeam.Configuration.Plan
import TestBeam.Decimal.Binary64
import TestBeam.Decimal.Layout
import TestBeam.Decimal.Reading
import TestBeam.Decimal.Shortest
import TestBeam.Detector
import TestBeam.Dimension
import TestBeam.Entry
import TestBeam.Executor
import TestBeam.Files.Store
import TestBeam.Files.Tree
import TestBeam.Geometry.BeamSpot
import TestBeam.Geometry.Matrix
import TestBeam.Geometry.Placement
import TestBeam.Geometry.Rotation
import TestBeam.Geometry.Scalar
import TestBeam.Geometry.Vector
import TestBeam.Histogram
import TestBeam.Json.Number
import TestBeam.Json.Printer
import TestBeam.Json.Reader
import TestBeam.Json.Value
import TestBeam.LogSettings
import TestBeam.Main
import TestBeam.Module.Error
import TestBeam.Module.Identity
import TestBeam.Module.Payload
import TestBeam.Module.Registry
import TestBeam.Module.Setup
import TestBeam.NameMap
import TestBeam.NameOrder
import TestBeam.Proofs.CommandLine.Check
import TestBeam.Proofs.CommandLine.Observed
import TestBeam.Proofs.CommandLine.Refusal
import TestBeam.Proofs.CommandLine.Status
import TestBeam.Proofs.Configuration.Arrays
import TestBeam.Proofs.Configuration.Built
import TestBeam.Proofs.Configuration.Candidates
import TestBeam.Proofs.Configuration.Changed
import TestBeam.Proofs.Configuration.DetectorOrder
import TestBeam.Proofs.Configuration.Document
import TestBeam.Proofs.Configuration.InPlace
import TestBeam.Proofs.Configuration.Plan
import TestBeam.Proofs.Configuration.Recounted
import TestBeam.Proofs.Configuration.References
import TestBeam.Proofs.Configuration.Reordered
import TestBeam.Proofs.Configuration.Requests
import TestBeam.Proofs.Configuration.Sequence
import TestBeam.Proofs.Configuration.Shadowed
import TestBeam.Proofs.Configuration.Validate
import TestBeam.Proofs.Configuration.Written
import TestBeam.Proofs.Decimal.Digits
import TestBeam.Proofs.Decimal.Integer
import TestBeam.Proofs.Decimal.Literal
import TestBeam.Proofs.Decimal.Nearest
import TestBeam.Proofs.Decimal.Overflow
import TestBeam.Proofs.Decimal.Parts
import TestBeam.Proofs.Decimal.Positional
import TestBeam.Proofs.Decimal.RoundTrip
import TestBeam.Proofs.Decimal.Rounding
import TestBeam.Proofs.Decimal.Shortest
import TestBeam.Proofs.Decimal.Signs
import TestBeam.Proofs.Entry.Agreement
import TestBeam.Proofs.Entry.History
import TestBeam.Proofs.Entry.InRange
import TestBeam.Proofs.Entry.Normal
import TestBeam.Proofs.Entry.Reading
import TestBeam.Proofs.Entry.Written
import TestBeam.Proofs.Executor.Blueprints
import TestBeam.Proofs.Executor.Calls
import TestBeam.Proofs.Executor.Observed
import TestBeam.Proofs.Executor.Ordered
import TestBeam.Proofs.Executor.Run
import TestBeam.Proofs.Executor.Schedule
import TestBeam.Proofs.Executor.Seeds
import TestBeam.Proofs.Executor.Sightings
import TestBeam.Proofs.Executor.Unaborted
import TestBeam.Proofs.Files.Store
import TestBeam.Proofs.Files.Tree
import TestBeam.Proofs.Geometry.BeamSpot
import TestBeam.Proofs.Geometry.Crossing
import TestBeam.Proofs.Geometry.Matrix
import TestBeam.Proofs.Geometry.Placement
import TestBeam.Proofs.Geometry.Rotation
import TestBeam.Proofs.Geometry.Vector
import TestBeam.Proofs.Histogram.Cells
import TestBeam.Proofs.Histogram.Edges
import TestBeam.Proofs.Json.Numbers
import TestBeam.Proofs.Json.Pieces
import TestBeam.Proofs.Json.Strings
import TestBeam.Proofs.Json.Values
import TestBeam.Proofs.NameMap
import TestBeam.Proofs.Quantity.Grammar
import TestBeam.Proofs.Quantity.Reading
import TestBeam.Proofs.Random
import TestBeam.Proofs.Result
import TestBeam.Proofs.Setting.Normalized
import TestBeam.Proofs.Setting.Written
import TestBeam.Proofs.Stage.Accounting
import TestBeam.Proofs.Stage.Assembly
import TestBeam.Proofs.Stage.BeamSpot
import TestBeam.Proofs.Stage.Completed
import TestBeam.Proofs.Stage.Contents
import TestBeam.Proofs.Stage.Counting
import TestBeam.Proofs.Stage.Crossings
import TestBeam.Proofs.Stage.Effects
import TestBeam.Proofs.Stage.Emission
import TestBeam.Proofs.Stage.Environment
import TestBeam.Proofs.Stage.Initialization
import TestBeam.Proofs.Stage.Instances
import TestBeam.Proofs.Stage.LocalFields
import TestBeam.Proofs.Stage.OneStream
import TestBeam.Proofs.Stage.Order
import TestBeam.Proofs.Stage.Phases
import TestBeam.Proofs.Stage.Publication
import TestBeam.Proofs.Stage.Reordered
import TestBeam.Proofs.Stage.Stream
import TestBeam.Proofs.Summary
import TestBeam.Proofs.Text.Words
import TestBeam.Proofs.Toml.Assembly
import TestBeam.Proofs.Toml.Elements
import TestBeam.Proofs.Toml.Numbers
import TestBeam.Proofs.Toml.Statements
import TestBeam.Proofs.Toml.Strings
import TestBeam.Proofs.Toml.Values
import TestBeam.Quantity
import TestBeam.Random
import TestBeam.Setting
import TestBeam.Stage.Builtin
import TestBeam.Stage.Charge
import TestBeam.Stage.Fields
import TestBeam.Stage.ParticleSource
import TestBeam.Stage.Placing
import TestBeam.Stage.PlaneHistogram
import TestBeam.Summary
import TestBeam.Text.Blank
import TestBeam.Toml.Assembly
import TestBeam.Toml.Datetime
import TestBeam.Toml.Number
import TestBeam.Toml.Printer
import TestBeam.Toml.Reader
import TestBeam.Toml.Text
import TestBeam.Toml.Value

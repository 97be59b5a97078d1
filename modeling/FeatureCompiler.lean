import FeatureCompiler.Annotation.Coercion
import FeatureCompiler.Annotation.Set
import FeatureCompiler.Annotation.Value
import FeatureCompiler.Build.Compile
import FeatureCompiler.Build.CompileError
import FeatureCompiler.Build.Discover
import FeatureCompiler.Build.Layout
import FeatureCompiler.Build.Run
import FeatureCompiler.Build.Shelf
import FeatureCompiler.Build.StepFiles
import FeatureCompiler.Catalog.Basic
import FeatureCompiler.Catalog.Manifest
import FeatureCompiler.Catalog.Script
import FeatureCompiler.Catalog.StepModule
import FeatureCompiler.Command.Arguments
import FeatureCompiler.Command.Compile
import FeatureCompiler.Command.Outline
import FeatureCompiler.Command.Result
import FeatureCompiler.Decimal.Binary64
import FeatureCompiler.Decimal.Layout
import FeatureCompiler.Decimal.Shortest
import FeatureCompiler.Disk.Basic
import FeatureCompiler.Disk.Fault
import FeatureCompiler.Disk.Node
import FeatureCompiler.Feature.Document
import FeatureCompiler.Feature.Line
import FeatureCompiler.Feature.Outline
import FeatureCompiler.Feature.Parse
import FeatureCompiler.Feature.ParseError
import FeatureCompiler.Json.Fault
import FeatureCompiler.Json.Literal
import FeatureCompiler.Json.Number
import FeatureCompiler.Json.Reader
import FeatureCompiler.Json.Scalar
import FeatureCompiler.Json.StringArray
import FeatureCompiler.Json.Value
import FeatureCompiler.Json.Writer
import FeatureCompiler.Main
import FeatureCompiler.Outcome
import FeatureCompiler.Path.Basic
import FeatureCompiler.Path.Extension
import FeatureCompiler.Path.Order
import FeatureCompiler.Path.Relative
import FeatureCompiler.Plan.MergedScenario
import FeatureCompiler.Plan.TestPlan
import FeatureCompiler.Proofs.Annotation.Coercion
import FeatureCompiler.Proofs.Annotation.Insertion
import FeatureCompiler.Proofs.Annotation.Merging
import FeatureCompiler.Proofs.Build.Batch
import FeatureCompiler.Proofs.Build.Composition
import FeatureCompiler.Proofs.Build.Discovery
import FeatureCompiler.Proofs.Build.DryRun
import FeatureCompiler.Proofs.Build.Frame
import FeatureCompiler.Proofs.Build.Layout
import FeatureCompiler.Proofs.Build.LookUp
import FeatureCompiler.Proofs.Build.Mirror
import FeatureCompiler.Proofs.Build.OnDisk
import FeatureCompiler.Proofs.Build.Places
import FeatureCompiler.Proofs.Build.Rebuild
import FeatureCompiler.Proofs.Build.Report
import FeatureCompiler.Proofs.Build.Rereading
import FeatureCompiler.Proofs.Build.Shelf
import FeatureCompiler.Proofs.Build.SourceNames
import FeatureCompiler.Proofs.Build.Spacing
import FeatureCompiler.Proofs.Build.Specifiers
import FeatureCompiler.Proofs.Catalog.Agreement
import FeatureCompiler.Proofs.Catalog.Declarations
import FeatureCompiler.Proofs.Catalog.Extent
import FeatureCompiler.Proofs.Catalog.Halting
import FeatureCompiler.Proofs.Catalog.Overriding
import FeatureCompiler.Proofs.Catalog.Spacing
import FeatureCompiler.Proofs.Catalog.Union
import FeatureCompiler.Proofs.Disk.Entries
import FeatureCompiler.Proofs.Disk.Following
import FeatureCompiler.Proofs.Disk.Growth
import FeatureCompiler.Proofs.Disk.Listing
import FeatureCompiler.Proofs.Disk.Making
import FeatureCompiler.Proofs.Disk.Reaching
import FeatureCompiler.Proofs.Disk.Refusing
import FeatureCompiler.Proofs.Disk.Repeating
import FeatureCompiler.Proofs.Disk.Tree
import FeatureCompiler.Proofs.Feature.Blocks
import FeatureCompiler.Proofs.Feature.Grammar
import FeatureCompiler.Proofs.Feature.Outline
import FeatureCompiler.Proofs.Feature.Source
import FeatureCompiler.Proofs.Feature.Spacing
import FeatureCompiler.Proofs.Feature.Viability
import FeatureCompiler.Proofs.Feature.WellFormed
import FeatureCompiler.Proofs.Json.StringArray
import FeatureCompiler.Proofs.Json.Tokens
import FeatureCompiler.Proofs.Outcome
import FeatureCompiler.Proofs.Path.Ancestors
import FeatureCompiler.Proofs.Path.Below
import FeatureCompiler.Proofs.Path.Characters
import FeatureCompiler.Proofs.Path.Extension
import FeatureCompiler.Proofs.Path.Join
import FeatureCompiler.Proofs.Path.Order
import FeatureCompiler.Proofs.Path.Relative
import FeatureCompiler.Proofs.Path.Shown
import FeatureCompiler.Proofs.Plan.Isolation
import FeatureCompiler.Proofs.Plan.Pages
import FeatureCompiler.Proofs.Plan.Resolution
import FeatureCompiler.Proofs.Script.Brackets
import FeatureCompiler.Proofs.Script.Choices
import FeatureCompiler.Proofs.Script.Code
import FeatureCompiler.Proofs.Script.CutEscapes
import FeatureCompiler.Proofs.Script.Insertion
import FeatureCompiler.Proofs.Script.JsonObject
import FeatureCompiler.Proofs.Script.JsonText
import FeatureCompiler.Proofs.Script.Limited
import FeatureCompiler.Proofs.Script.Literal
import FeatureCompiler.Proofs.Script.Locality
import FeatureCompiler.Proofs.Script.Lockstep
import FeatureCompiler.Proofs.Script.Progress
import FeatureCompiler.Proofs.Script.Rereading
import FeatureCompiler.Proofs.Script.Spelling
import FeatureCompiler.Proofs.Script.Walk
import FeatureCompiler.Proofs.TestModule.Identifiers
import FeatureCompiler.Proofs.TestModule.ReadBack
import FeatureCompiler.Proofs.TestModule.Skeleton
import FeatureCompiler.Proofs.TestModule.Unambiguous
import FeatureCompiler.Proofs.TestModule.Values
import FeatureCompiler.Proofs.Text.Category
import FeatureCompiler.Proofs.Text.Delimited
import FeatureCompiler.Proofs.Text.Lines
import FeatureCompiler.Proofs.Text.Pieces
import FeatureCompiler.Proofs.Text.Quoted
import FeatureCompiler.Proofs.Text.Ranges
import FeatureCompiler.Proofs.Text.Replace
import FeatureCompiler.Proofs.Text.Trim
import FeatureCompiler.Proofs.Text.Utf8
import FeatureCompiler.Script.Export
import FeatureCompiler.Script.Fault
import FeatureCompiler.Script.Literal
import FeatureCompiler.Script.Object
import FeatureCompiler.Script.Template
import FeatureCompiler.Script.Token
import FeatureCompiler.Script.Trivia
import FeatureCompiler.TestModule.Literal
import FeatureCompiler.TestModule.Render
import FeatureCompiler.Text.Alphabetic
import FeatureCompiler.Text.Blank
import FeatureCompiler.Text.Bytes
import FeatureCompiler.Text.DefaultIgnorable
import FeatureCompiler.Text.GraphemeExtend
import FeatureCompiler.Text.Hex
import FeatureCompiler.Text.Lines
import FeatureCompiler.Text.Numeric
import FeatureCompiler.Text.Order
import FeatureCompiler.Text.Pieces
import FeatureCompiler.Text.Quoted
import FeatureCompiler.Text.Ranges
import FeatureCompiler.Text.Unprintable

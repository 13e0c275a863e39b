import CompanionBuild.Analyzer
import CompanionBuild.Build.Basic
import CompanionBuild.Build.Diagnostics
import CompanionBuild.Build.Emit
import CompanionBuild.Build.Phases
import CompanionBuild.Build.Record
import CompanionBuild.Command.Basic
import CompanionBuild.Command.Run
import CompanionBuild.Companion
import CompanionBuild.Compiler
import CompanionBuild.Diagnostic.Basic
import CompanionBuild.Diagnostic.Relocation
import CompanionBuild.Diagnostic.Report
import CompanionBuild.Dialogue
import CompanionBuild.Emit.Flags
import CompanionBuild.Emit.Mapper
import CompanionBuild.Emit.Pipeline
import CompanionBuild.Emit.Router
import CompanionBuild.Error
import CompanionBuild.FileSystem.Basic
import CompanionBuild.FileSystem.Memory
import CompanionBuild.FileSystem.Snapshot
import CompanionBuild.FileSystem.Tree
import CompanionBuild.Host.Basic
import CompanionBuild.Host.Caches
import CompanionBuild.Host.ModuleName
import CompanionBuild.Host.Query
import CompanionBuild.Host.Resource
import CompanionBuild.Host.Source
import CompanionBuild.Host.Unit
import CompanionBuild.Json.Basic
import CompanionBuild.Json.Document
import CompanionBuild.Json.Numeral
import CompanionBuild.Json.Printer
import CompanionBuild.Json.Token
import CompanionBuild.Lowering.Decorator
import CompanionBuild.Lowering.Expression
import CompanionBuild.Lowering.Metadata
import CompanionBuild.Lowering.Request
import CompanionBuild.Main
import CompanionBuild.Metadata
import CompanionBuild.Names
import CompanionBuild.Number.Binary64
import CompanionBuild.Number.Decimal
import CompanionBuild.Outline.Analyzer
import CompanionBuild.Outline.Compiler
import CompanionBuild.Outline.Parser
import CompanionBuild.Outline.Transform
import CompanionBuild.Outline.World
import CompanionBuild.Path.Basic
import CompanionBuild.Path.Naming
import CompanionBuild.Project.File
import CompanionBuild.Project.Options
import CompanionBuild.Project.Package
import CompanionBuild.Proofs.Build.Accumulation
import CompanionBuild.Proofs.Build.Batching
import CompanionBuild.Proofs.Build.Calls
import CompanionBuild.Proofs.Build.Course
import CompanionBuild.Proofs.Build.Delivery
import CompanionBuild.Proofs.Build.Emission
import CompanionBuild.Proofs.Build.Handling
import CompanionBuild.Proofs.Build.Incremental
import CompanionBuild.Proofs.Build.Lineage
import CompanionBuild.Proofs.Build.Phases
import CompanionBuild.Proofs.Build.Rendering
import CompanionBuild.Proofs.Build.Retention
import CompanionBuild.Proofs.Build.Round
import CompanionBuild.Proofs.Build.Step
import CompanionBuild.Proofs.Build.Success
import CompanionBuild.Proofs.Companion
import CompanionBuild.Proofs.Determined
import CompanionBuild.Proofs.Diagnostic.Relocation
import CompanionBuild.Proofs.Emit.Mapper
import CompanionBuild.Proofs.Emit.Pipeline
import CompanionBuild.Proofs.Host.Ascent
import CompanionBuild.Proofs.Host.Attachment
import CompanionBuild.Proofs.Host.Classification
import CompanionBuild.Proofs.Host.Disk
import CompanionBuild.Proofs.Host.Existence
import CompanionBuild.Proofs.Host.Fingerprint
import CompanionBuild.Proofs.Host.History
import CompanionBuild.Proofs.Host.Intake
import CompanionBuild.Proofs.Host.KeptName
import CompanionBuild.Proofs.Host.Lasting
import CompanionBuild.Proofs.Host.Lookup
import CompanionBuild.Proofs.Host.Lowering
import CompanionBuild.Proofs.Host.ModuleName
import CompanionBuild.Proofs.Host.Origin
import CompanionBuild.Proofs.Host.PackageName
import CompanionBuild.Proofs.Host.Provenance
import CompanionBuild.Proofs.Host.RelativeName
import CompanionBuild.Proofs.Host.Shadow
import CompanionBuild.Proofs.Host.Source
import CompanionBuild.Proofs.Host.Steady
import CompanionBuild.Proofs.Host.Survey
import CompanionBuild.Proofs.Host.Unit
import CompanionBuild.Proofs.Json.Reading
import CompanionBuild.Proofs.Json.Token
import CompanionBuild.Proofs.Lowering.Binding
import CompanionBuild.Proofs.Lowering.Candidate
import CompanionBuild.Proofs.Lowering.Capture
import CompanionBuild.Proofs.Lowering.Commutation
import CompanionBuild.Proofs.Lowering.Conservation
import CompanionBuild.Proofs.Lowering.Expressible
import CompanionBuild.Proofs.Lowering.Expression
import CompanionBuild.Proofs.Lowering.Freshness
import CompanionBuild.Proofs.Lowering.Idempotence
import CompanionBuild.Proofs.Lowering.Inline
import CompanionBuild.Proofs.Lowering.Layout
import CompanionBuild.Proofs.Lowering.Merging
import CompanionBuild.Proofs.Lowering.Metadata
import CompanionBuild.Proofs.Lowering.Preservation
import CompanionBuild.Proofs.Lowering.Request
import CompanionBuild.Proofs.Lowering.Restoration
import CompanionBuild.Proofs.Names
import CompanionBuild.Proofs.Number.Numeral
import CompanionBuild.Proofs.Outline.Rendering
import CompanionBuild.Proofs.Outline.Round
import CompanionBuild.Proofs.Path.Canonical
import CompanionBuild.Proofs.Path.CompanionName
import CompanionBuild.Proofs.Path.Containment
import CompanionBuild.Proofs.Path.Naming
import CompanionBuild.Proofs.Path.Package
import CompanionBuild.Proofs.Path.Packaged
import CompanionBuild.Proofs.Path.Relative
import CompanionBuild.Proofs.Path.Segments
import CompanionBuild.Proofs.Path.Stack
import CompanionBuild.Proofs.Project.RoundTrip
import CompanionBuild.Proofs.Resource.Agreement
import CompanionBuild.Proofs.Resource.Arguments
import CompanionBuild.Proofs.Resource.Completeness
import CompanionBuild.Proofs.Resource.Loading
import CompanionBuild.Proofs.Resource.Mirror
import CompanionBuild.Proofs.Resource.Within
import CompanionBuild.Proofs.Symbol
import CompanionBuild.Proofs.Table
import CompanionBuild.Proofs.Text.Literal
import CompanionBuild.Proofs.Text.Offset
import CompanionBuild.Proofs.Tree.Mention
import CompanionBuild.Proofs.Tree.Node
import CompanionBuild.Proofs.Tree.Place
import CompanionBuild.Proofs.Tree.Position
import CompanionBuild.Proofs.Tree.Reference
import CompanionBuild.Proofs.Tree.Unplaced
import CompanionBuild.Proofs.Within
import CompanionBuild.Resolution
import CompanionBuild.Resource.Inline
import CompanionBuild.Resource.Loader
import CompanionBuild.Resource.Metadata
import CompanionBuild.Symbol
import CompanionBuild.Template
import CompanionBuild.Text.Affix
import CompanionBuild.Text.Blank
import CompanionBuild.Text.Offset
import CompanionBuild.Text.Quoted
import CompanionBuild.Text.Word
import CompanionBuild.Transform
import CompanionBuild.Tree.Decl
import CompanionBuild.Tree.Expr
import CompanionBuild.Tree.Printed
import CompanionBuild.Tree.Printer
import CompanionBuild.Tree.Span
import CompanionBuild.Tree.TypeExpr
import CompanionBuild.Tree.Unit
import CompanionBuild.Tree.Walk

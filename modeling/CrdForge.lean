import CrdForge.Command.Arguments
import CrdForge.Command.Needs
import CrdForge.Command.Run
import CrdForge.Config.Basic
import CrdForge.Config.Decode
import CrdForge.Config.Encode
import CrdForge.Config.Store
import CrdForge.Config.Validate
import CrdForge.Conversion.Basic
import CrdForge.Conversion.Convert
import CrdForge.Conversion.PropertyPlugin
import CrdForge.Crd.Decode
import CrdForge.Crd.Definition
import CrdForge.Crd.Rule
import CrdForge.Crd.Schema
import CrdForge.Crd.Structural
import CrdForge.Decimal.Layout
import CrdForge.Decimal.Reading
import CrdForge.Decimal.Shortest
import CrdForge.Digest
import CrdForge.Extension.Tree
import CrdForge.Generation.Failure
import CrdForge.Generation.Generator
import CrdForge.Generation.Report
import CrdForge.Host.Clock
import CrdForge.Host.Environment
import CrdForge.Host.FileSystem
import CrdForge.Host.PathName
import CrdForge.Json
import CrdForge.Keyed
import CrdForge.Main
import CrdForge.OpenApi.Decode
import CrdForge.OpenApi.Document
import CrdForge.OpenApi.Encode
import CrdForge.OpenApi.Load
import CrdForge.OpenApi.VendorKey
import CrdForge.Path
import CrdForge.Pipeline.Annotate
import CrdForge.Pipeline.Build
import CrdForge.Pipeline.Connection
import CrdForge.Pipeline.Failure
import CrdForge.Pipeline.Plugin
import CrdForge.Pipeline.PluginSet
import CrdForge.Pipeline.Reference
import CrdForge.Pipeline.Skeleton
import CrdForge.Pipeline.Source
import CrdForge.Pipeline.Version
import CrdForge.Proofs.Conversion.Outcome
import CrdForge.Proofs.Conversion.Shape
import CrdForge.Proofs.Extension.Links
import CrdForge.Proofs.Keyed
import CrdForge.Text.Affix
import CrdForge.Text.Alphanumeric
import CrdForge.Text.Blank
import CrdForge.Text.Case
import CrdForge.Text.CaseTable
import CrdForge.Text.CodeRanges
import CrdForge.Text.Hexadecimal
import CrdForge.Text.Plural
import CrdForge.Text.Printable
import CrdForge.Text.Quoted
import CrdForge.Text.WordCharacter
import CrdForge.Yaml.Cursor
import CrdForge.Yaml.Lexer
import CrdForge.Yaml.Node
import CrdForge.Yaml.Reading
import CrdForge.Yaml.Scalar
import CrdForge.Yaml.ScalarText
import CrdForge.Yaml.Shape
import CrdForge.Yaml.Style
import CrdForge.Yaml.Tag
import CrdForge.Yaml.Token
import CrdForge.Yaml.Tree
import CrdForge.Yaml.Value
import CrdForge.Yaml.Write
import CrdForge.Proofs.Extension.Notes
import CrdForge.Proofs.Conversion.Telling
import CrdForge.Proofs.Conversion.Results
import CrdForge.Proofs.Conversion.Entries
import CrdForge.Proofs.Conversion.Secrets
import CrdForge.Proofs.Pipeline.Parts
import CrdForge.Proofs.Pipeline.Steps
import CrdForge.Proofs.Generation.Runs
import CrdForge.Proofs.Crd.Presence
import CrdForge.Proofs.Pipeline.SpecRules
import CrdForge.Proofs.Generation.Acceptance
import CrdForge.Proofs.Crd.Inspection
import CrdForge.Proofs.Text.Lower
import CrdForge.Proofs.Text.Plural
import CrdForge.Proofs.OpenApi.WellFormed
import CrdForge.Proofs.Conversion.Fineness
import CrdForge.Proofs.Pipeline.Structure
import CrdForge.Proofs.Generation.Findings
import CrdForge.Proofs.Extension.Annotation
import CrdForge.Proofs.Conversion.Orphans
import CrdForge.Proofs.Conversion.Concealment
import CrdForge.Proofs.Pipeline.Repetition
import CrdForge.Proofs.Pipeline.Resolution
import CrdForge.Proofs.Generation.Isolation
import CrdForge.Proofs.Extension.Subtrees
import CrdForge.Proofs.Extension.Edits
import CrdForge.Proofs.Generation.Versions
import CrdForge.Proofs.Pipeline.Sources
import CrdForge.Proofs.Pipeline.Orphans
import CrdForge.Proofs.Generation.Drift
import CrdForge.Proofs.Json.Keywords
import CrdForge.Proofs.Conversion.Validity
import CrdForge.Proofs.Crd.Nesting
import CrdForge.Proofs.Conversion.Settling
import CrdForge.Proofs.Pipeline.Calls
import CrdForge.Proofs.Generation.Objections
import CrdForge.Proofs.Pipeline.VersionChoice
import CrdForge.Proofs.Config.Check
import CrdForge.Proofs.Pipeline.Failures
import CrdForge.Proofs.Generation.Failures
import CrdForge.Proofs.Pipeline.Listing
import CrdForge.Proofs.Pipeline.Fields
import CrdForge.Proofs.Generation.FixedParts
import CrdForge.Proofs.Generation.Immutability
import CrdForge.Proofs.Pipeline.References
import CrdForge.Proofs.Generation.References
import CrdForge.Proofs.Generation.MappingOrder
import CrdForge.Proofs.Json.Entries
import CrdForge.Proofs.Yaml.Shown
import CrdForge.Proofs.Host.Writing
import CrdForge.Proofs.Config.Saving
import CrdForge.Proofs.Crd.Rendering
import CrdForge.Proofs.Crd.ClusterDocument
import CrdForge.Proofs.Yaml.Within
import CrdForge.Proofs.Yaml.FromJson
import CrdForge.Proofs.OpenApi.VendorKey
import CrdForge.Proofs.OpenApi.Made
import CrdForge.Proofs.OpenApi.Rendering
import CrdForge.Proofs.OpenApi.Contents
import CrdForge.Proofs.OpenApi.Rereading
import CrdForge.Proofs.Conversion.PluginOrder
import CrdForge.Proofs.Conversion.Filtering
import CrdForge.Proofs.Generation.IdentityRules
import CrdForge.Proofs.Conversion.Narrowing
import CrdForge.Proofs.Conversion.Discriminator
import CrdForge.Proofs.Conversion.Renaming
import CrdForge.Proofs.Pipeline.Overriding
import CrdForge.Proofs.Generation.Choices
import CrdForge.Proofs.Extension.Pruning
import CrdForge.Proofs.Crd.Formats
import CrdForge.Proofs.OpenApi.EntryOrder
import CrdForge.Proofs.Pipeline.Culprits
import CrdForge.Proofs.OpenApi.Chains
import CrdForge.Proofs.Pipeline.Indirection
import CrdForge.Proofs.Crd.Grammar
import CrdForge.Proofs.Conversion.Descent
import CrdForge.Proofs.Conversion.Openness
import CrdForge.Proofs.Conversion.Depth
import CrdForge.Proofs.Host.Directories
import CrdForge.Proofs.Command.Generate
import CrdForge.Proofs.Conversion.Readings
import CrdForge.Proofs.Conversion.Exactness
import CrdForge.Proofs.Path
import CrdForge.Proofs.Conversion.Locations
import CrdForge.Proofs.Conversion.Footprint
import CrdForge.Proofs.Pipeline.Rotation
import CrdForge.Proofs.Extension.Recursion
import CrdForge.Proofs.Pipeline.Upkeep
import CrdForge.Proofs.Generation.Forest
import CrdForge.Proofs.OpenApi.PackageNames

import FleetCompose.CommandLine.Options
import FleetCompose.CommandLine.Run
import FleetCompose.CommandLine.Usage
import FleetCompose.Compile
import FleetCompose.Compose.Artifacts
import FleetCompose.Compose.Build
import FleetCompose.Compose.Delivery
import FleetCompose.Compose.Dockerfile
import FleetCompose.Compose.Dump
import FleetCompose.Compose.ImageRef
import FleetCompose.Compose.Manifest
import FleetCompose.Compose.Model
import FleetCompose.Compose.Requirement
import FleetCompose.Compose.Resources
import FleetCompose.Compose.Service
import FleetCompose.Data.Accumulate
import FleetCompose.Data.OrderedMap
import FleetCompose.Data.Traverse
import FleetCompose.Decimal.Binary64
import FleetCompose.Decimal.Shortest
import FleetCompose.Document
import FleetCompose.Document.Read
import FleetCompose.Document.ReadError
import FleetCompose.Document.Source
import FleetCompose.Files.FileSystem
import FleetCompose.Files.Path
import FleetCompose.Files.Step
import FleetCompose.Fleet
import FleetCompose.Fleet.Declarations
import FleetCompose.Fleet.Expanded
import FleetCompose.Fleet.Load
import FleetCompose.Fleet.LoadError
import FleetCompose.Json.OfYaml
import FleetCompose.Json.Value
import FleetCompose.Logged
import FleetCompose.Logged.Filter
import FleetCompose.Main
import FleetCompose.Proofs.Acceptance
import FleetCompose.Proofs.Agreement
import FleetCompose.Proofs.BlankTexts
import FleetCompose.Proofs.BoundTexts
import FleetCompose.Proofs.BuildContexts
import FleetCompose.Proofs.BuildIssues
import FleetCompose.Proofs.BuildTools
import FleetCompose.Proofs.Checks
import FleetCompose.Proofs.CloneUrls
import FleetCompose.Proofs.CompletedDelivery
import FleetCompose.Proofs.Conversion
import FleetCompose.Proofs.Credentials
import FleetCompose.Proofs.DeclaredFields
import FleetCompose.Proofs.DeclaredVariables
import FleetCompose.Proofs.DescribedFleet
import FleetCompose.Proofs.Distributions
import FleetCompose.Proofs.DockerfileLines
import FleetCompose.Proofs.Expansion
import FleetCompose.Proofs.FailedDelivery
import FleetCompose.Proofs.FieldForms
import FleetCompose.Proofs.FileChanges
import FleetCompose.Proofs.FilledTexts
import FleetCompose.Proofs.HostFiles
import FleetCompose.Proofs.IndentedLines
import FleetCompose.Proofs.IndexTables
import FleetCompose.Proofs.Isolation
import FleetCompose.Proofs.JsonReading
import FleetCompose.Proofs.KeyedLists
import FleetCompose.Proofs.LeastEdits
import FleetCompose.Proofs.LexedLines
import FleetCompose.Proofs.LexedValues
import FleetCompose.Proofs.ManifestLines
import FleetCompose.Proofs.ManifestReading
import FleetCompose.Proofs.ManifestSections
import FleetCompose.Proofs.Middleware
import FleetCompose.Proofs.MissingFiles
import FleetCompose.Proofs.ModelParts
import FleetCompose.Proofs.NamedReferences
import FleetCompose.Proofs.Networks
import FleetCompose.Proofs.OutputPlaces
import FleetCompose.Proofs.Padding
import FleetCompose.Proofs.ParsedValues
import FleetCompose.Proofs.PinnedReferences
import FleetCompose.Proofs.PlaceholderExpression
import FleetCompose.Proofs.Placeholders
import FleetCompose.Proofs.PlainNumbers
import FleetCompose.Proofs.Positions
import FleetCompose.Proofs.Pruning
import FleetCompose.Proofs.QuotedScripts
import FleetCompose.Proofs.Reordering
import FleetCompose.Proofs.ReportedPlaces
import FleetCompose.Proofs.RobotScopes
import FleetCompose.Proofs.RosField
import FleetCompose.Proofs.RosTexts
import FleetCompose.Proofs.RoundTrip
import FleetCompose.Proofs.ScannedBlocks
import FleetCompose.Proofs.ScannedScalars
import FleetCompose.Proofs.Sections
import FleetCompose.Proofs.ServiceFields
import FleetCompose.Proofs.ServiceNames
import FleetCompose.Proofs.SettledFields
import FleetCompose.Proofs.Substitution
import FleetCompose.Proofs.Suggestions
import FleetCompose.Proofs.TextLines
import FleetCompose.Proofs.Texts
import FleetCompose.Proofs.TrailingSlashes
import FleetCompose.Proofs.VariableNames
import FleetCompose.Proofs.Volumes
import FleetCompose.Proofs.Warnings
import FleetCompose.Proofs.WellFormed
import FleetCompose.Proofs.WrittenCharacters
import FleetCompose.Proofs.WrittenTexts
import FleetCompose.Report
import FleetCompose.Report.Excerpt
import FleetCompose.Report.Ink
import FleetCompose.Report.SourceLine
import FleetCompose.Ros
import FleetCompose.Settings
import FleetCompose.Settings.Source
import FleetCompose.Template.Placeholder
import FleetCompose.Template.Scope
import FleetCompose.Template.Values
import FleetCompose.Text.Blank
import FleetCompose.Text.EditDistance
import FleetCompose.Text.Glyph
import FleetCompose.Text.Hexadecimal
import FleetCompose.Text.Identifier
import FleetCompose.Text.Quoted
import FleetCompose.Text.Similarity
import FleetCompose.Text.Split
import FleetCompose.Toml.Attempt
import FleetCompose.Toml.Cursor
import FleetCompose.Toml.DateTime
import FleetCompose.Toml.Fault
import FleetCompose.Toml.Grammar
import FleetCompose.Toml.Number
import FleetCompose.Toml.Quoted
import FleetCompose.Toml.Table
import FleetCompose.Yaml.Character
import FleetCompose.Yaml.Mark
import FleetCompose.Yaml.Node
import FleetCompose.Yaml.Node.Grammar
import FleetCompose.Yaml.Plain
import FleetCompose.Yaml.Style
import FleetCompose.Yaml.SyntaxError
import FleetCompose.Yaml.Token
import FleetCompose.Yaml.Token.Lexer
import FleetCompose.Yaml.Token.Properties
import FleetCompose.Yaml.Token.Scalars
import FleetCompose.Yaml.Value
import FleetCompose.Yaml.Writer

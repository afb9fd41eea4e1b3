import EntityModel.CSharp.Keyword
import EntityModel.CSharp.Literal
import EntityModel.CSharp.MappedType
import EntityModel.CSharp.Writer
import EntityModel.CommandLine.Arguments
import EntityModel.CommandLine.Display
import EntityModel.CommandLine.Run
import EntityModel.CommandLine.SettingsFile
import EntityModel.Diagnostic.Basic
import EntityModel.Diagnostic.Code
import EntityModel.Failure
import EntityModel.Generation.Body
import EntityModel.Generation.Document
import EntityModel.Generation.File
import EntityModel.Generation.Member
import EntityModel.Generation.Plan
import EntityModel.Log
import EntityModel.Markup.AttributeList
import EntityModel.Markup.Document
import EntityModel.Markup.Element
import EntityModel.Markup.Name
import EntityModel.Markup.Reference
import EntityModel.Markup.Token
import EntityModel.Model
import EntityModel.Output.Commit
import EntityModel.Output.Destination
import EntityModel.Report
import EntityModel.Schema.Basic
import EntityModel.Schema.Fault
import EntityModel.Schema.Inheritance
import EntityModel.Schema.Keyword
import EntityModel.Schema.OfElement
import EntityModel.Schema.Reading
import EntityModel.Schema.Resolution
import EntityModel.Schema.SourceMap
import EntityModel.Schema.Uniqueness
import EntityModel.Schema.Validation
import EntityModel.Settings.Basic
import EntityModel.Settings.Toml
import EntityModel.Settings.Update
import EntityModel.Settings.Value
import EntityModel.Span
import EntityModel.Storage.Activity
import EntityModel.Storage.Basic
import EntityModel.Storage.FileTree
import EntityModel.Storage.FilePath
import EntityModel.Text.Alphabetic
import EntityModel.Text.Blank
import EntityModel.Text.Hidden
import EntityModel.Text.Identifier
import EntityModel.Text.Integer
import EntityModel.Text.Numeral
import EntityModel.Text.Offset
import EntityModel.Text.Quoted
import EntityModel.Text.Real
import EntityModel.Text.Search
import EntityModel.Main
import EntityModel.Proofs.Walk
import EntityModel.Proofs.Components
import EntityModel.Proofs.BaseTypes
import EntityModel.Proofs.Nesting
import EntityModel.Proofs.Positions
import EntityModel.Proofs.Accounting
import EntityModel.Proofs.Places
import EntityModel.Proofs.FaultPlaces
import EntityModel.Proofs.FaultCodes
import EntityModel.Proofs.InheritanceCycles
import EntityModel.Proofs.KeyReferences
import EntityModel.Proofs.RejectedDocuments
import EntityModel.Proofs.WellFormed
import EntityModel.Proofs.Blocks
import EntityModel.Proofs.FirstFailure
import EntityModel.Proofs.Layouts
import EntityModel.Proofs.References
import EntityModel.Proofs.Effects
import EntityModel.Proofs.Paths
import EntityModel.Proofs.Staging
import EntityModel.Proofs.Publishing
import EntityModel.Proofs.Commits
import EntityModel.Proofs.FailedRuns
import EntityModel.Proofs.WrittenProperties
import EntityModel.Proofs.KeyProperties
import EntityModel.Proofs.ClassLines
import EntityModel.Proofs.ScalarProperties
import EntityModel.Proofs.InverseNavigation
import EntityModel.Proofs.Reciprocity
import EntityModel.Proofs.ForeignKeys
import EntityModel.Proofs.Spellings
import EntityModel.Proofs.ImportedNamespaces
import EntityModel.Proofs.SideBySide
import EntityModel.Proofs.Respelling
import EntityModel.Proofs.RespelledSchemas
import EntityModel.Proofs.DeclarationOrder
import EntityModel.Proofs.FilledPatterns
import EntityModel.Proofs.NameChecks
import EntityModel.Proofs.FileNames
import EntityModel.Proofs.Indentation
import EntityModel.Proofs.NavigationLines
import EntityModel.Proofs.DecimalText
import EntityModel.Proofs.WrittenTags
import EntityModel.Proofs.WrittenElements
import EntityModel.Proofs.WrittenRecords
import EntityModel.Proofs.WrittenSchema
import EntityModel.Proofs.SourceLines
import EntityModel.Proofs.StringLiterals
import EntityModel.Proofs.DocumentationComments
import EntityModel.Proofs.Rounding
import EntityModel.Proofs.RealLiterals
import EntityModel.Proofs.IntegerLiterals
import EntityModel.Proofs.PlainNames
import EntityModel.Proofs.MemberNames
import EntityModel.Proofs.SourceMaps
import EntityModel.Proofs.LabelPlaces
import EntityModel.Proofs.SpelledWords
import EntityModel.Proofs.LayeredSettings
import EntityModel.Proofs.PieceTexts
import EntityModel.Proofs.ElementTexts
import EntityModel.Proofs.ElementSpans
import EntityModel.Proofs.ConceptualSchema
import EntityModel.Proofs.ReadingCodes
import EntityModel.Proofs.EndCounts
import EntityModel.Proofs.RepeatedNames
import EntityModel.Proofs.DuplicateReports
import EntityModel.Proofs.MarkupCuts
import EntityModel.Proofs.MissingTags
import EntityModel.Proofs.DroppedSpace
import EntityModel.Proofs.ElementData
import EntityModel.Proofs.PaddedElements
import EntityModel.Proofs.PaddedValues

import PhoenixLens.Components.Builtin
import PhoenixLens.Components.Resolution
import PhoenixLens.Editor.Completion
import PhoenixLens.Editor.Definition
import PhoenixLens.Editor.Diagnostics
import PhoenixLens.Editor.Location
import PhoenixLens.Elixir.Controllers
import PhoenixLens.Elixir.Definition
import PhoenixLens.Elixir.EctoSchemas
import PhoenixLens.Elixir.EventHandlers
import PhoenixLens.Elixir.FunctionComponents
import PhoenixLens.Elixir.Lexical
import PhoenixLens.Elixir.Literal
import PhoenixLens.Elixir.LogicalLine
import PhoenixLens.Elixir.ModuleHeader
import PhoenixLens.Elixir.Router
import PhoenixLens.Elixir.Scan
import PhoenixLens.Elixir.TemplateFiles
import PhoenixLens.Exact.BoundedCache
import PhoenixLens.Exact.Gateway
import PhoenixLens.Exact.Limiter
import PhoenixLens.Exact.Payload
import PhoenixLens.Exact.Process
import PhoenixLens.Exact.Shell
import PhoenixLens.Exact.Shell.Commands
import PhoenixLens.Exact.Shell.Editing
import PhoenixLens.Exact.Shell.Filters
import PhoenixLens.Exact.Shell.Grammar
import PhoenixLens.Exact.Shell.Outcome
import PhoenixLens.Exact.Shell.Pattern
import PhoenixLens.Exact.Shell.Pieces
import PhoenixLens.Exact.Shell.Regex
import PhoenixLens.Exact.Shell.Run
import PhoenixLens.Exact.Shell.State
import PhoenixLens.Exact.Shell.Syntax
import PhoenixLens.Exact.Shell.Token
import PhoenixLens.Glob.Match
import PhoenixLens.Index.Basic
import PhoenixLens.Index.Cache
import PhoenixLens.Index.Lookup
import PhoenixLens.Index.Registry
import PhoenixLens.Json.Basic
import PhoenixLens.Json.Decode
import PhoenixLens.Json.Parser
import PhoenixLens.Json.Printer
import PhoenixLens.Json.Shape
import PhoenixLens.Main
import PhoenixLens.Markup.EventBindings
import PhoenixLens.Markup.Extractor
import PhoenixLens.Markup.Html
import PhoenixLens.Markup.Html.TagSyntax
import PhoenixLens.Markup.Mask
import PhoenixLens.Markup.Node
import PhoenixLens.Markup.Tag
import PhoenixLens.Markup.Tree
import PhoenixLens.Markup.Usages
import PhoenixLens.Model.Component
import PhoenixLens.Model.Controller
import PhoenixLens.Model.EntityKind
import PhoenixLens.Model.Event
import PhoenixLens.Model.Route
import PhoenixLens.Model.Schema
import PhoenixLens.Model.Template
import PhoenixLens.Model.Usage
import PhoenixLens.Path.Basic
import PhoenixLens.Path.Disk
import PhoenixLens.Project.Config
import PhoenixLens.Project.SourceFilter
import PhoenixLens.Proofs.Editor.MissingRoutes
import PhoenixLens.Proofs.Editor.StreamLoops
import PhoenixLens.Proofs.Elixir.BlockTree
import PhoenixLens.Proofs.Elixir.ByteArguments
import PhoenixLens.Proofs.Elixir.ByteLines
import PhoenixLens.Proofs.Elixir.ByteScanners
import PhoenixLens.Proofs.Elixir.Closed
import PhoenixLens.Proofs.Elixir.CodeLine
import PhoenixLens.Proofs.Elixir.ComponentReading
import PhoenixLens.Proofs.Elixir.ComponentScan
import PhoenixLens.Proofs.Elixir.ControllerReading
import PhoenixLens.Proofs.Elixir.ControllerScan
import PhoenixLens.Proofs.Elixir.ControllerTree
import PhoenixLens.Proofs.Elixir.Declarations
import PhoenixLens.Proofs.Elixir.Lexical
import PhoenixLens.Proofs.Elixir.MacroLine
import PhoenixLens.Proofs.Elixir.ModuleLine
import PhoenixLens.Proofs.Elixir.Passages
import PhoenixLens.Proofs.Elixir.Piece
import PhoenixLens.Proofs.Elixir.Remark
import PhoenixLens.Proofs.Elixir.RemarkReading
import PhoenixLens.Proofs.Elixir.RemarkScan
import PhoenixLens.Proofs.Elixir.RemarkSource
import PhoenixLens.Proofs.Elixir.RouterReading
import PhoenixLens.Proofs.Elixir.RouterScan
import PhoenixLens.Proofs.Elixir.RouterTree
import PhoenixLens.Proofs.Elixir.RouterValue
import PhoenixLens.Proofs.Elixir.SchemaReading
import PhoenixLens.Proofs.Elixir.SchemaScan
import PhoenixLens.Proofs.Elixir.SchemaSource
import PhoenixLens.Proofs.Exact.BoundedCache
import PhoenixLens.Proofs.Exact.Gateway
import PhoenixLens.Proofs.Exact.Limiter
import PhoenixLens.Proofs.Exact.SharedAnswers
import PhoenixLens.Proofs.History
import PhoenixLens.Proofs.Index.CachedStart
import PhoenixLens.Proofs.Index.Document
import PhoenixLens.Proofs.Index.Interleaving
import PhoenixLens.Proofs.Index.LookupOrder
import PhoenixLens.Proofs.Index.Reached
import PhoenixLens.Proofs.Index.Readings
import PhoenixLens.Proofs.Index.Registry
import PhoenixLens.Proofs.Index.Replacing
import PhoenixLens.Proofs.Index.Representation
import PhoenixLens.Proofs.Index.SavedCache
import PhoenixLens.Proofs.Index.Scanning
import PhoenixLens.Proofs.Json.Lexing
import PhoenixLens.Proofs.Json.Records
import PhoenixLens.Proofs.Json.Written
import PhoenixLens.Proofs.Markup.Bodies
import PhoenixLens.Proofs.Markup.ByteAttributes
import PhoenixLens.Proofs.Markup.ByteMask
import PhoenixLens.Proofs.Markup.ByteReading
import PhoenixLens.Proofs.Markup.Closing
import PhoenixLens.Proofs.Markup.InPlace
import PhoenixLens.Proofs.Markup.LooseTag
import PhoenixLens.Proofs.Markup.MarkedText
import PhoenixLens.Proofs.Markup.Names
import PhoenixLens.Proofs.Markup.Nesting
import PhoenixLens.Proofs.Markup.Outline
import PhoenixLens.Proofs.Markup.Provided
import PhoenixLens.Proofs.Markup.Regions
import PhoenixLens.Proofs.Markup.Reports
import PhoenixLens.Proofs.Markup.Rewriting
import PhoenixLens.Proofs.Markup.Slots
import PhoenixLens.Proofs.Markup.Spans
import PhoenixLens.Proofs.Markup.Template
import PhoenixLens.Proofs.Markup.Tiers
import PhoenixLens.Proofs.Markup.TreeNodes
import PhoenixLens.Proofs.Markup.TreeUses
import PhoenixLens.Proofs.Markup.Uses
import PhoenixLens.Proofs.Model.Survival
import PhoenixLens.Proofs.Path.Disk
import PhoenixLens.Proofs.Path.Names
import PhoenixLens.Proofs.Path.Order
import PhoenixLens.Proofs.Path.Sorted
import PhoenixLens.Proofs.Path.Writing
import PhoenixLens.Proofs.Project.Walk
import PhoenixLens.Proofs.Routing.Admission
import PhoenixLens.Proofs.Routing.Beginning
import PhoenixLens.Proofs.Routing.QuotedPath
import PhoenixLens.Proofs.Session.ClosedFiles
import PhoenixLens.Proofs.Session.Convergence
import PhoenixLens.Proofs.Session.DebounceAdvance
import PhoenixLens.Proofs.Session.Debouncer
import PhoenixLens.Proofs.Session.DiskRun
import PhoenixLens.Proofs.Session.DocumentActs
import PhoenixLens.Proofs.Session.DocumentTexts
import PhoenixLens.Proofs.Session.Edits
import PhoenixLens.Proofs.Session.Files
import PhoenixLens.Proofs.Session.KeptDocuments
import PhoenixLens.Proofs.Session.OpenDocuments
import PhoenixLens.Proofs.SortedLists
import PhoenixLens.Proofs.Text.Basic
import PhoenixLens.Proofs.Text.Position
import PhoenixLens.Proofs.Text.Rest
import PhoenixLens.Routing.Match
import PhoenixLens.Schemas.Assigns
import PhoenixLens.Session.Basic
import PhoenixLens.Session.Capabilities
import PhoenixLens.Session.Debouncer
import PhoenixLens.Session.Dispatch
import PhoenixLens.Session.Message
import PhoenixLens.Session.Parameters
import PhoenixLens.Text.Basic
import PhoenixLens.Text.CaseTable
import PhoenixLens.Text.Casing
import PhoenixLens.Text.Char
import PhoenixLens.Text.Digest
import PhoenixLens.Text.LetterTable
import PhoenixLens.Text.Position
import PhoenixLens.Text.Utf8
import PhoenixLens.Uri
import PhoenixLens.Uri.Domain
import PhoenixLens.Uri.DomainTable
import PhoenixLens.Uri.Host

import Coercion.Audit
import Coercion.Command.Action
import Coercion.Command.Disk
import Coercion.Command.Duration
import Coercion.Command.Exhibit
import Coercion.Command.Failure
import Coercion.Command.Flag
import Coercion.Command.Host
import Coercion.Command.Invocation
import Coercion.Command.Manifest
import Coercion.Command.Path
import Coercion.Command.Question
import Coercion.Command.Run
import Coercion.Command.Scaffold
import Coercion.Command.Session
import Coercion.Command.Trial
import Coercion.CompatTable
import Coercion.Diagnostic.Bag
import Coercion.Diagnostic.Basic
import Coercion.Diagnostic.Report
import Coercion.Graph.Basic
import Coercion.Graph.Closure
import Coercion.Json
import Coercion.Kind
import Coercion.Listing
import Coercion.Main
import Coercion.Manager
import Coercion.MessagePack
import Coercion.Number.Binary64
import Coercion.Number.Calendar
import Coercion.Number.Decimal
import Coercion.Number.Literal
import Coercion.Number.Random
import Coercion.Number.Range
import Coercion.Number.Word
import Coercion.Proofs.CompatTable.Occupancy
import Coercion.Proofs.CompatTable.Records
import Coercion.Proofs.Graph.Closedness
import Coercion.Proofs.Graph.DeclarationOrder
import Coercion.Proofs.Graph.Declarations
import Coercion.Proofs.Graph.Propagation
import Coercion.Proofs.Graph.Redeclaration
import Coercion.Proofs.Graph.Representation
import Coercion.Proofs.Resolver.Classification
import Coercion.Proofs.Resolver.Signatures
import Coercion.Proofs.Selection.Best
import Coercion.Proofs.Selection.Flat
import Coercion.Proofs.Selection.Positions
import Coercion.Proofs.Universe.Meaning
import Coercion.Rating
import Coercion.Registry
import Coercion.Release
import Coercion.Resolver
import Coercion.Selection
import Coercion.Stress.Dashboard
import Coercion.Stress.Query
import Coercion.Stress.Run
import Coercion.Table.Basic
import Coercion.Table.Numeric
import Coercion.Table.Source
import Coercion.Table.Toml
import Coercion.Table.Yaml
import Coercion.Text.Blank
import Coercion.Text.Cluster
import Coercion.Text.CodePoints
import Coercion.Text.Distance
import Coercion.Text.Keyword
import Coercion.Text.Letter
import Coercion.Text.Natural
import Coercion.Text.Normal
import Coercion.Text.Printable
import Coercion.Text.Quoted
import Coercion.Text.Style
import Coercion.Text.Width
import Coercion.Timer
import Coercion.Toml.Document
import Coercion.Toml.Expr
import Coercion.Toml.Reading
import Coercion.Trace.Event
import Coercion.Trace.Journal
import Coercion.Trace.Moment
import Coercion.Trace.Ring
import Coercion.TypeId
import Coercion.Universe.Build
import Coercion.Universe.Declaration
import Coercion.Yaml.Cursor
import Coercion.Yaml.Lexeme
import Coercion.Yaml.Node
import Coercion.Yaml.Printer
import Coercion.Yaml.Scalar
import Coercion.Yaml.Token
import Coercion.Proofs.Universe.Aliases
import Coercion.Proofs.Universe.Validity
import Coercion.Proofs.Resolver.Relaxation
import Coercion.Proofs.Manager.Lifecycle
import Coercion.Proofs.Selection.Audit
import Coercion.Proofs.Resolver.Interleaving
import Coercion.Proofs.Registry.Lifecycle
import Coercion.Proofs.Universe.Closedness
import Coercion.Proofs.Universe.Export
import Coercion.Proofs.Registry.Printing
import Coercion.Proofs.Universe.AliasChains
import Coercion.Proofs.Stress.Questions
import Coercion.Proofs.Stress.Schedules
import Coercion.Proofs.Stress.Runs
import Coercion.Proofs.Toml.Outline
import Coercion.Proofs.Table.Toml
import Coercion.Proofs.Table.Yaml
import Coercion.Proofs.Table.Formats
import Coercion.Proofs.Trace.Newest
import Coercion.Proofs.CompatTable.Statistics
import Coercion.Proofs.Resolver.Loading
import Coercion.Proofs.Graph.Balance
import Coercion.Proofs.Universe.Conservation
import Coercion.Proofs.Rating.Addition
import Coercion.Proofs.Diagnostic.Capacity
import Coercion.Proofs.Listing.Filter
import Coercion.Proofs.Graph.Points
import Coercion.Proofs.Graph.Replay
import Coercion.Proofs.Trace.Spans
import Coercion.Proofs.Graph.Recording

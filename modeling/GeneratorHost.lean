import GeneratorHost.Artifact.Name
import GeneratorHost.Artifact.Sink
import GeneratorHost.CommandLine.Level
import GeneratorHost.CommandLine.Request
import GeneratorHost.CommandLine.Run
import GeneratorHost.CommandLine.Switch
import GeneratorHost.Declaration.Basic
import GeneratorHost.Declaration.Kind
import GeneratorHost.Disk
import GeneratorHost.Failure.Compile
import GeneratorHost.Failure.Config
import GeneratorHost.Failure.Invocation
import GeneratorHost.Failure.Source
import GeneratorHost.Generator.EntryPoint
import GeneratorHost.Generator.Marker
import GeneratorHost.Generator.Panic
import GeneratorHost.Generator.Run
import GeneratorHost.Generator.Script
import GeneratorHost.Generator.View
import GeneratorHost.Grammar.Category
import GeneratorHost.Grammar.Expression
import GeneratorHost.Grammar.Generics
import GeneratorHost.Grammar.Item
import GeneratorHost.Grammar.Parse
import GeneratorHost.Grammar.Path
import GeneratorHost.Grammar.Pattern
import GeneratorHost.Grammar.Reader
import GeneratorHost.Grammar.Signature
import GeneratorHost.Grammar.Statement
import GeneratorHost.Grammar.Type
import GeneratorHost.Host.Compilation
import GeneratorHost.Host.Discovery
import GeneratorHost.Host.Edition
import GeneratorHost.Host.Layout
import GeneratorHost.Host.SourceTree
import GeneratorHost.Host.SupportModule
import GeneratorHost.Host.SupportSource
import GeneratorHost.Image.Bytes
import GeneratorHost.Image.Elf
import GeneratorHost.Image.Exports
import GeneratorHost.Image.MachO
import GeneratorHost.Image.Writer
import GeneratorHost.Index.Build
import GeneratorHost.Index.Listing
import GeneratorHost.Index.Symbol
import GeneratorHost.Index.Walk
import GeneratorHost.Invocation.Dispatch
import GeneratorHost.Invocation.Entry
import GeneratorHost.Invocation.Sink
import GeneratorHost.Json.Basic
import GeneratorHost.Json.Printer
import GeneratorHost.Json.Reader
import GeneratorHost.Main
import GeneratorHost.Pass.Config
import GeneratorHost.Pass.Run
import GeneratorHost.Proofs.Artifact.Names
import GeneratorHost.Proofs.Artifact.Store
import GeneratorHost.Proofs.Grammar.Declarations
import GeneratorHost.Proofs.Grammar.Items
import GeneratorHost.Proofs.Grammar.Productions
import GeneratorHost.Proofs.Grammar.Reader
import GeneratorHost.Proofs.Grammar.WellFormed
import GeneratorHost.Proofs.Index.Candidates
import GeneratorHost.Proofs.Index.Marker
import GeneratorHost.Proofs.Index.Placement
import GeneratorHost.Proofs.Index.Table
import GeneratorHost.Proofs.Index.Walk
import GeneratorHost.Proofs.Invocation.Callbacks
import GeneratorHost.Proofs.Invocation.Calls
import GeneratorHost.Proofs.Invocation.Dialogue
import GeneratorHost.Proofs.Pass.Artifacts
import GeneratorHost.Proofs.Pass.Books
import GeneratorHost.Proofs.Pass.Emitted
import GeneratorHost.Proofs.Pass.Order
import GeneratorHost.Proofs.Pass.Visits
import GeneratorHost.Proofs.Report.Comment
import GeneratorHost.Proofs.Scope.Bindings
import GeneratorHost.Proofs.Scope.Closure
import GeneratorHost.Proofs.Scope.Declares
import GeneratorHost.Proofs.Scope.Facts
import GeneratorHost.Proofs.Scope.Traits
import GeneratorHost.Proofs.Text.Colons
import GeneratorHost.Proofs.Token.Proper
import GeneratorHost.Proofs.Unit.Attempt
import GeneratorHost.Proofs.Unit.Sample
import GeneratorHost.Report.Diagnostic
import GeneratorHost.Report.Duration
import GeneratorHost.Report.Log
import GeneratorHost.Report.Statistics
import GeneratorHost.Scope.Collect
import GeneratorHost.Scope.Resolve
import GeneratorHost.Scope.Table
import GeneratorHost.Scope.Traits
import GeneratorHost.Text.Class
import GeneratorHost.Text.Escaped
import GeneratorHost.Text.FilePath
import GeneratorHost.Text.IdentifierTable
import GeneratorHost.Text.LetterTable
import GeneratorHost.Text.Lossy
import GeneratorHost.Text.Position
import GeneratorHost.Text.PrintableTable
import GeneratorHost.Text.Split
import GeneratorHost.Token.Basic
import GeneratorHost.Token.Lexer
import GeneratorHost.Token.Literal
import GeneratorHost.Token.Number
import GeneratorHost.Token.Printer
import GeneratorHost.Toolchain.Config
import GeneratorHost.Toolchain.Message
import GeneratorHost.Toolchain.References
import GeneratorHost.Toolchain.Version
import GeneratorHost.Unit.Compile
import GeneratorHost.Unit.Compiled
import GeneratorHost.Unit.Root
import GeneratorHost.Unit.Sample
import GeneratorHost.Proofs.Scope.Calls
import GeneratorHost.Proofs.Scope.Frame
import GeneratorHost.Proofs.Index.Reexport
import GeneratorHost.Proofs.Scope.Fallback
import GeneratorHost.Proofs.Scope.Grounded
import GeneratorHost.Proofs.Index.Contents
import GeneratorHost.Proofs.Image.Exporting
import GeneratorHost.Proofs.Index.Apart
import GeneratorHost.Proofs.Index.FileOrder
import GeneratorHost.Proofs.Index.Bodies
import GeneratorHost.Proofs.Index.Preorder
import GeneratorHost.Proofs.Index.Namespaces
import GeneratorHost.Proofs.Index.Identity
import GeneratorHost.Proofs.Index.Coverage
import GeneratorHost.Proofs.Unit.Boundary
import GeneratorHost.Generator.Memory
import GeneratorHost.Proofs.Text.Lossy
import GeneratorHost.Proofs.Generator.Memory
import GeneratorHost.Proofs.Generator.Views
import GeneratorHost.Proofs.Invocation.History
import GeneratorHost.Proofs.Invocation.Lifecycle
import GeneratorHost.Proofs.Unit.Verdict
import GeneratorHost.Proofs.Index.Listing
import GeneratorHost.Proofs.Text.Offsets
import GeneratorHost.Proofs.Token.Places
import GeneratorHost.Proofs.Toolchain.Libraries
import GeneratorHost.Proofs.Invocation.Symbols
import GeneratorHost.Proofs.Index.Source
import GeneratorHost.Proofs.Scope.Interfaces
import GeneratorHost.Proofs.Artifact.Directory
import GeneratorHost.Proofs.Token.Names
import GeneratorHost.Proofs.Token.Rounds
import GeneratorHost.Proofs.Unit.Root
import GeneratorHost.Proofs.Unit.Support
import GeneratorHost.Proofs.Scope.Grouping
import GeneratorHost.Proofs.Text.Lines
import GeneratorHost.Proofs.Unit.Places
import GeneratorHost.Proofs.Unit.Sources
import GeneratorHost.Proofs.Disk
import GeneratorHost.Proofs.Toolchain.Messages
import GeneratorHost.Proofs.Unit.Restated
import GeneratorHost.Proofs.Unit.Border
import GeneratorHost.Proofs.Unit.Joined
import GeneratorHost.Proofs.Unit.Linked
import GeneratorHost.Proofs.Host.Discovery
import GeneratorHost.Proofs.Host.Layout
import GeneratorHost.Proofs.Report.Entries
import GeneratorHost.Proofs.Scope.Tree
import GeneratorHost.Proofs.Scope.Evaluation
import GeneratorHost.Proofs.Grammar.TypeWords
import GeneratorHost.Proofs.Grammar.Skips
import GeneratorHost.Proofs.Generator.Marker

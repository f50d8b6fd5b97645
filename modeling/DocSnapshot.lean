import DocSnapshot.CommandLine.Arguments
import DocSnapshot.CommandLine.Image
import DocSnapshot.CommandLine.Output
import DocSnapshot.CommandLine.Run
import DocSnapshot.Commit
import DocSnapshot.CommitSource
import DocSnapshot.Config
import DocSnapshot.Decimal.Binary64
import DocSnapshot.Decimal.Shortest
import DocSnapshot.Discovery
import DocSnapshot.Duration
import DocSnapshot.Error
import DocSnapshot.FileSystem.Artifact
import DocSnapshot.FileSystem.Basic
import DocSnapshot.FileSystem.Node
import DocSnapshot.Grammar.Automaton
import DocSnapshot.Grammar.Machine
import DocSnapshot.Grammar.Production
import DocSnapshot.Grammar.Rule
import DocSnapshot.Grammar.Tree
import DocSnapshot.Hook
import DocSnapshot.Ignore.Compile
import DocSnapshot.Ignore.Glob
import DocSnapshot.Ignore.Matcher
import DocSnapshot.Json.Reader
import DocSnapshot.Json.Shape
import DocSnapshot.Json.Value
import DocSnapshot.Main
import DocSnapshot.Manifest
import DocSnapshot.OrderedMap
import DocSnapshot.Path
import DocSnapshot.Python.Docstring
import DocSnapshot.Python.Grammar
import DocSnapshot.Python.Layout
import DocSnapshot.Python.Lexer
import DocSnapshot.Python.Literal
import DocSnapshot.Python.Lowering
import DocSnapshot.Python.Module
import DocSnapshot.Python.Nesting
import DocSnapshot.Python.Node
import DocSnapshot.Python.Statement
import DocSnapshot.Python.StringLiteral
import DocSnapshot.Record.Basic
import DocSnapshot.Record.Extraction
import DocSnapshot.Record.Json
import DocSnapshot.Record.Reader
import DocSnapshot.Setup
import DocSnapshot.Snapshot.Phase
import DocSnapshot.Snapshot.Pool
import DocSnapshot.Snapshot.Run
import DocSnapshot.Status
import DocSnapshot.StructureMap.Basic
import DocSnapshot.StructureMap.Json
import DocSnapshot.Text.Casing
import DocSnapshot.Text.CharClass
import DocSnapshot.Text.Identifier
import DocSnapshot.Text.Printable
import DocSnapshot.Text.Quoted
import DocSnapshot.Text.Split
import DocSnapshot.Text.Utf8
import DocSnapshot.Timestamp
import DocSnapshot.Proofs.Python.Placement
import DocSnapshot.Proofs.Python.Depth
import DocSnapshot.Proofs.Python.Extras
import DocSnapshot.Proofs.Python.Readers
import DocSnapshot.Proofs.Python.Bare
import DocSnapshot.Proofs.Python.Insertion
import DocSnapshot.Proofs.Python.Blocks
import DocSnapshot.Proofs.Python.Dumps
import DocSnapshot.Proofs.Record.Alike
import DocSnapshot.Proofs.Python.Continuation
import DocSnapshot.Proofs.Python.Comments
import DocSnapshot.Proofs.Python.Places
import DocSnapshot.Proofs.Python.Traversal
import DocSnapshot.Proofs.Python.Declarations
import DocSnapshot.Proofs.Record.Arguments
import DocSnapshot.Proofs.Python.ParameterOrder
import DocSnapshot.Proofs.Python.Walk
import DocSnapshot.Proofs.Python.Escapes
import DocSnapshot.Proofs.Python.Quotation
import DocSnapshot.Proofs.Python.Delimiters
import DocSnapshot.Proofs.Python.BytesQuotes
import DocSnapshot.Proofs.Python.Integers
import DocSnapshot.Proofs.Python.Docstring
import DocSnapshot.Proofs.Python.Skeleton
import DocSnapshot.Proofs.Python.Reindent
import DocSnapshot.Proofs.Record.Definitions
import DocSnapshot.Proofs.Record.Constants
import DocSnapshot.Proofs.Snapshot.Pool
import DocSnapshot.Proofs.FileSystem.Blank
import DocSnapshot.Proofs.Snapshot.Phases
import DocSnapshot.Proofs.Path
import DocSnapshot.Proofs.FileSystem.Kind
import DocSnapshot.Proofs.FileSystem.Place
import DocSnapshot.Proofs.FileSystem.Effect
import DocSnapshot.Proofs.Snapshot.Output
import DocSnapshot.Proofs.Discovery
import DocSnapshot.Proofs.Snapshot.Faults
import DocSnapshot.Proofs.Snapshot.History
import DocSnapshot.Proofs.FileSystem.Reach
import DocSnapshot.Proofs.OrderedMap
import DocSnapshot.Proofs.StructureMap
import DocSnapshot.Proofs.FileSystem.Walk
import DocSnapshot.Proofs.FileSystem.Lookup
import DocSnapshot.Proofs.FileSystem.Linkless
import DocSnapshot.Proofs.FileSystem.Success
import DocSnapshot.Proofs.Sources
import DocSnapshot.Proofs.Snapshot.Interleaving
import DocSnapshot.Proofs.Snapshot.Written
import DocSnapshot.Proofs.Snapshot.Agreement
import DocSnapshot.Proofs.Snapshot.Clash
import DocSnapshot.Proofs.Snapshot.Repeat
import DocSnapshot.Proofs.StructureMap.Insertions
import DocSnapshot.Proofs.Ignore.Precedence
import DocSnapshot.Proofs.Ignore.Answers
import DocSnapshot.Proofs.Ignore.Literals
import DocSnapshot.Proofs.Ignore.DirectoryLines
import DocSnapshot.Proofs.Scan
import DocSnapshot.Proofs.Timestamp
import DocSnapshot.Proofs.Json.Containers
import DocSnapshot.Proofs.Json.Writing
import DocSnapshot.Proofs.Record.Shape
import DocSnapshot.Proofs.RoundTrip
import DocSnapshot.Proofs.Json.Outcome
import DocSnapshot.Proofs.StructureMap.RoundTrip
import DocSnapshot.Proofs.StructureMap.Frame
import DocSnapshot.Proofs.Text.Utf8
import DocSnapshot.Proofs.Text.Slices
import DocSnapshot.Proofs.Text.Trim
import DocSnapshot.Proofs.Commit
import DocSnapshot.Proofs.FileSystem.Single
import DocSnapshot.Proofs.FileSystem.Directories
import DocSnapshot.Proofs.Setup.Steps
import DocSnapshot.Proofs.Setup.Convergence
import DocSnapshot.Proofs.Status

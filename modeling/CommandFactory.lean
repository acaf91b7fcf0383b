import CommandFactory.Artifact.Emission
import CommandFactory.Artifact.Path
import CommandFactory.CommandLine.Arguments
import CommandFactory.CommandLine.Execution
import CommandFactory.CommandLine.Report
import CommandFactory.Compilation
import CommandFactory.Declaration.Basic
import CommandFactory.Declaration.Checking
import CommandFactory.Declaration.Coding
import CommandFactory.Diagnostic
import CommandFactory.Failure
import CommandFactory.FileTree.Access
import CommandFactory.FileTree.Basic
import CommandFactory.FileTree.Path
import CommandFactory.Json.Basic
import CommandFactory.Json.Decimal
import CommandFactory.Json.Decoder
import CommandFactory.Json.Draft
import CommandFactory.Keyed
import CommandFactory.Main
import CommandFactory.Manifest.Basic
import CommandFactory.Manifest.Coding
import CommandFactory.Module.Basic
import CommandFactory.Module.Coding
import CommandFactory.Module.Nesting
import CommandFactory.Module.Rendering
import CommandFactory.Module.Synthesis
import CommandFactory.Naming
import CommandFactory.Proofs.Artifact.CallPath
import CommandFactory.Proofs.Artifact.Collision
import CommandFactory.Proofs.Artifact.Emission
import CommandFactory.Proofs.Artifact.Isolation
import CommandFactory.Proofs.Artifact.Path
import CommandFactory.Proofs.CommandLine.ExitStatus
import CommandFactory.Proofs.Cycle
import CommandFactory.Proofs.Declaration.Checking
import CommandFactory.Proofs.FileTree.Parent
import CommandFactory.Proofs.FileTree.Path
import CommandFactory.Proofs.FileTree.Walk
import CommandFactory.Proofs.Json.Reading
import CommandFactory.Proofs.Keyed
import CommandFactory.Proofs.Manifest.RoundTrip
import CommandFactory.Proofs.Module.Assembly
import CommandFactory.Proofs.Module.Binding
import CommandFactory.Proofs.Module.Calls
import CommandFactory.Proofs.Module.Delivery
import CommandFactory.Proofs.Module.Forest
import CommandFactory.Proofs.Module.Identifiers
import CommandFactory.Proofs.Module.Literals
import CommandFactory.Proofs.Module.Location
import CommandFactory.Proofs.Module.Names
import CommandFactory.Proofs.Module.Partition
import CommandFactory.Proofs.Module.Path
import CommandFactory.Proofs.Module.Plan
import CommandFactory.Proofs.Module.Procedures
import CommandFactory.Proofs.Module.Rendering
import CommandFactory.Proofs.Module.Tree
import CommandFactory.Proofs.Module.Typing
import CommandFactory.Proofs.Naming
import CommandFactory.Proofs.Registry.Acyclicity
import CommandFactory.Proofs.Registry.Derivation
import CommandFactory.Proofs.Registry.Discovery
import CommandFactory.Proofs.Registry.ElementOrder
import CommandFactory.Proofs.Registry.Entry
import CommandFactory.Proofs.Registry.Erasure
import CommandFactory.Proofs.Registry.Forest
import CommandFactory.Proofs.Registry.GroupFields
import CommandFactory.Proofs.Registry.Growth
import CommandFactory.Proofs.Registry.NearestAncestor
import CommandFactory.Proofs.Registry.Nesting
import CommandFactory.Proofs.Registry.Ownership
import CommandFactory.Proofs.Registry.Sifting
import CommandFactory.Proofs.Replay.Accessors
import CommandFactory.Proofs.Replay.Arguments
import CommandFactory.Proofs.Replay.Correctness
import CommandFactory.Proofs.Replay.Groups
import CommandFactory.Proofs.Replay.Interpretation
import CommandFactory.Proofs.Replay.Metadata
import CommandFactory.Proofs.Replay.OptionNames
import CommandFactory.Proofs.Replay.Outcome
import CommandFactory.Proofs.Replay.ParentFields
import CommandFactory.Proofs.Replay.Realization
import CommandFactory.Proofs.Replay.Registration
import CommandFactory.Proofs.Replay.Reliability
import CommandFactory.Proofs.Replay.Safety
import CommandFactory.Proofs.Replay.Storage
import CommandFactory.Proofs.Replay.Supply
import CommandFactory.Proofs.Settings.Discovery
import CommandFactory.Proofs.Symbol.Erasure
import CommandFactory.Proofs.Symbol.Owners
import CommandFactory.Proofs.Symbol.Package
import CommandFactory.Proofs.Symbol.RoundTrip
import CommandFactory.Proofs.Text.Identifier
import CommandFactory.Proofs.Token.Blanking
import CommandFactory.Proofs.Token.TypeGrammar
import CommandFactory.Registry.Ancestry
import CommandFactory.Registry.Basic
import CommandFactory.Registry.Extraction
import CommandFactory.Replay.Execution
import CommandFactory.Replay.Spec
import CommandFactory.Replay.Store
import CommandFactory.Settings.Basic
import CommandFactory.Settings.File
import CommandFactory.Sorting
import CommandFactory.Symbol.Basic
import CommandFactory.Symbol.Coding
import CommandFactory.Symbol.Table
import CommandFactory.Text.Blank
import CommandFactory.Text.EscapedRanges
import CommandFactory.Text.Identifier
import CommandFactory.Text.IdentifierRanges
import CommandFactory.Text.Quoted
import CommandFactory.Token.Basic
import CommandFactory.Token.Lexer
import CommandFactory.Token.TypeGrammar
import CommandFactory.Proofs.Naming.SnakeCase
import CommandFactory.Proofs.Registry.History

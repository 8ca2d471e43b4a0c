import DocSketch.Fault.Excerpt
import DocSketch.Token.Basic
import DocSketch.Token.Lexeme
import DocSketch.Token.Lexer
import DocSketch.Tree.Expr
import DocSketch.Tree.Stmt
import DocSketch.Grammar.Cursor
import DocSketch.Grammar.Expr
import DocSketch.Grammar.Stmt
import DocSketch.Scope.Basic
import DocSketch.Scope.Collect
import DocSketch.Source
import DocSketch.Types.Descriptor
import DocSketch.Types.Label
import DocSketch.Template.Arena
import DocSketch.Template.Numbering
import DocSketch.Template.Snippet
import DocSketch.Resolution.Context
import DocSketch.Resolution.Lead
import DocSketch.Resolution.Resolver
import DocSketch.Command
import DocSketch.Main
import DocSketch.Proofs.Token.Steps
import DocSketch.Proofs.Tree.Nodes
import DocSketch.Proofs.Scope.Collection
import DocSketch.Proofs.Resolution.Requests
import DocSketch.Proofs.Resolution.Faults
import DocSketch.Proofs.Resolution.Outcome
import DocSketch.Proofs.Resolution.Pursuit
import DocSketch.Proofs.Resolution.Memory
import DocSketch.Proofs.Resolution.Recomputation
import DocSketch.Proofs.Resolution.Replay
import DocSketch.Proofs.Resolution.Simulation
import DocSketch.Proofs.Resolution.Decision
import DocSketch.Proofs.Resolution.Transparency
import DocSketch.Proofs.Template.Nesting
import DocSketch.Proofs.Template.Flattening
import DocSketch.Proofs.Template.Building
import DocSketch.Proofs.Template.Passes
import DocSketch.Proofs.Template.Escaping
import DocSketch.Proofs.Template.Fields
import DocSketch.Proofs.Grammar.Moves
import DocSketch.Proofs.Grammar.Names
import DocSketch.Proofs.Template.TabStops
import DocSketch.Proofs.Types.Rendering
import DocSketch.Proofs.Token.Words
import DocSketch.Proofs.Docstring.Rendering
import DocSketch.Proofs.Token.Tiling
import DocSketch.Proofs.Grammar.Readers
import DocSketch.Proofs.Grammar.Operators
import DocSketch.Proofs.Grammar.Spelling
import DocSketch.Proofs.Grammar.Recovery
import DocSketch.Proofs.Grammar.Unpacking
import DocSketch.Proofs.Grammar.Displays
import DocSketch.Proofs.Grammar.Arguments
import DocSketch.Proofs.Grammar.RoundTrip
import DocSketch.Proofs.Types.Canonical
import DocSketch.Proofs.Types.Lattice
import DocSketch.Proofs.Template.Lexemes
import DocSketch.Proofs.Template.Outline
import DocSketch.Proofs.Template.Composition
import DocSketch.Proofs.Template.Reading
import DocSketch.Proofs.Token.Locality
import DocSketch.Proofs.Token.Stretches
import DocSketch.Proofs.Grammar.Statements
import DocSketch.Proofs.Grammar.Runs
import DocSketch.Proofs.Grammar.Progress
import DocSketch.Proofs.Grammar.Turns
import DocSketch.Proofs.Grammar.Termination
import DocSketch.Proofs.Grammar.StatementTermination
import DocSketch.Proofs.Grammar.Extents
import DocSketch.Proofs.Grammar.LostParentheses
import DocSketch.Proofs.Grammar.Retracing
import DocSketch.Proofs.Grammar.RetracedDisplays
import DocSketch.Proofs.Grammar.RetracedOperators
import DocSketch.Proofs.Grammar.RetracedArguments
import DocSketch.Proofs.Grammar.Restoration
import DocSketch.Proofs.Source.NodeText
import DocSketch.Proofs.Types.Marking
import DocSketch.Proofs.Resolution.Marking
import DocSketch.Proofs.Token.Nesting
import DocSketch.Proofs.Grammar.Blocks
import DocSketch.Proofs.Grammar.Takes
import DocSketch.Proofs.Grammar.SimpleReaders
import DocSketch.Proofs.Grammar.BlockReaders
import DocSketch.Proofs.Tree.Ownership
import DocSketch.Proofs.Grammar.SourceOrder
import DocSketch.Proofs.Scope.Contents
import DocSketch.Proofs.Tree.Yields
import DocSketch.Proofs.Grammar.YieldOrder
import DocSketch.Proofs.Scope.Yields
import DocSketch.Proofs.Template.Groups
import DocSketch.Proofs.Template.FieldNumbers
import DocSketch.Proofs.Resolution.Sessions
import DocSketch.Proofs.Resolution.Release
import DocSketch.Proofs.Grammar.Reaching
import DocSketch.Proofs.Grammar.Framing
import DocSketch.Proofs.Grammar.FramedReaders
import DocSketch.Proofs.Grammar.StatementEdges
import DocSketch.Proofs.Grammar.StatementSpans
import DocSketch.Proofs.Grammar.Mirroring
import DocSketch.Proofs.Grammar.MirroredReaders
import DocSketch.Proofs.Grammar.MirroredStatements
import DocSketch.Proofs.Grammar.MirroredPrograms
import DocSketch.Proofs.Grammar.TrailingSemicolons
import DocSketch.Proofs.Scope.Hierarchy
import DocSketch.Proofs.Source.NodeSpans
import DocSketch.Proofs.Types.FirstSeen
import DocSketch.Proofs.Template.EscapedText
import DocSketch.Proofs.Template.VisibleBraces
import DocSketch.Proofs.Template.BracePartners
import DocSketch.Proofs.Template.Scanning
import DocSketch.Proofs.Token.Placement
import DocSketch.Proofs.Token.BlankLines
import DocSketch.Proofs.Token.Strings
import DocSketch.Proofs.Resolution.Collapse
import DocSketch.Proofs.Types.Splitting
import DocSketch.Proofs.Types.DottedLabels
import DocSketch.Proofs.Fault.Excerpt
import DocSketch.Proofs.Scope.Imports
import DocSketch.Proofs.Text.LineSearch
import DocSketch.Proofs.Template.Registry

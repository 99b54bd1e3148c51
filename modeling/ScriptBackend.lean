import ScriptBackend.Checker.Basic
import ScriptBackend.Checker.Corruption
import ScriptBackend.Checker.Rules
import ScriptBackend.Code.Instruction
import ScriptBackend.Code.Layout
import ScriptBackend.Code.Opcode
import ScriptBackend.Code.Program
import ScriptBackend.Code.Slots
import ScriptBackend.Diagnostic
import ScriptBackend.Emitter.Basic
import ScriptBackend.Emitter.Labels
import ScriptBackend.Emitter.Lines
import ScriptBackend.Flow.Basic
import ScriptBackend.Flow.Build
import ScriptBackend.Flow.Cache
import ScriptBackend.Generator
import ScriptBackend.Graph.Digraph
import ScriptBackend.Graph.Search
import ScriptBackend.Lowering.Basic
import ScriptBackend.Lowering.CaseKey
import ScriptBackend.Lowering.Condition
import ScriptBackend.Lowering.Error
import ScriptBackend.Lowering.Expr
import ScriptBackend.Lowering.Stmt
import ScriptBackend.Lowering.Trailer
import ScriptBackend.Named
import ScriptBackend.Pipeline
import ScriptBackend.Pointer.Basic
import ScriptBackend.Pointer.Effects
import ScriptBackend.Proofs.Checker.Answers
import ScriptBackend.Proofs.Checker.Asking
import ScriptBackend.Proofs.Checker.Calls
import ScriptBackend.Proofs.Checker.DefiniteSets
import ScriptBackend.Proofs.Checker.Gathering
import ScriptBackend.Proofs.Checker.Independence
import ScriptBackend.Proofs.Checker.Questions
import ScriptBackend.Proofs.Emitter.Items
import ScriptBackend.Proofs.Emitter.Labels
import ScriptBackend.Proofs.Flow.Contraction
import ScriptBackend.Proofs.Flow.Edges
import ScriptBackend.Proofs.Flow.Exits
import ScriptBackend.Proofs.Flow.IntegerRuns
import ScriptBackend.Proofs.Flow.Links
import ScriptBackend.Proofs.Flow.Passages
import ScriptBackend.Proofs.Flow.Places
import ScriptBackend.Proofs.Flow.Sequence
import ScriptBackend.Proofs.Flow.StepGraph
import ScriptBackend.Proofs.Lowering.Comparisons
import ScriptBackend.Proofs.Lowering.Emission
import ScriptBackend.Proofs.Lowering.Plain
import ScriptBackend.Proofs.Lowering.References
import ScriptBackend.Proofs.Lowering.Shape
import ScriptBackend.Proofs.Lowering.Straight
import ScriptBackend.Proofs.Lowering.SuccessOutcomes
import ScriptBackend.Proofs.Lowering.WellFormed
import ScriptBackend.Proofs.Semantics.Flat
import ScriptBackend.Proofs.Semantics.Follows
import ScriptBackend.Proofs.Semantics.Simulation
import ScriptBackend.Proofs.Semantics.Structured
import ScriptBackend.Proofs.Stacks.Effects
import ScriptBackend.Proofs.Stacks.Paths
import ScriptBackend.Proofs.Stacks.Scan
import ScriptBackend.Proofs.Stacks.Statements
import ScriptBackend.Proofs.Stacks.Typing
import ScriptBackend.Proofs.Stacks.Values
import ScriptBackend.Span
import ScriptBackend.Symbol.Basic
import ScriptBackend.Symbol.Scope
import ScriptBackend.Text.Digest
import ScriptBackend.Text.Marks
import ScriptBackend.Text.Printable
import ScriptBackend.Text.Quoted
import ScriptBackend.Text.Ranges
import ScriptBackend.Text.Unassigned
import ScriptBackend.Tree.Expr
import ScriptBackend.Tree.Operator
import ScriptBackend.Tree.Resolved
import ScriptBackend.Tree.Stmt
import ScriptBackend.Trigger
import ScriptBackend.Ty
import ScriptBackend.Proofs.Checker.Corruption
import ScriptBackend.Proofs.Checker.Verdicts
import ScriptBackend.Proofs.Checker.Repeating
import ScriptBackend.Proofs.Lowering.Laws
import ScriptBackend.Proofs.Pipeline.Isolation
import ScriptBackend.Proofs.Flow.LineErasure
import ScriptBackend.Proofs.Lowering.LineErasure
import ScriptBackend.Proofs.Checker.LineErasure
import ScriptBackend.Proofs.Pipeline.LineErasure
import ScriptBackend.Proofs.Lowering.Departures
import ScriptBackend.Proofs.Checker.CorruptionPaths
import ScriptBackend.Proofs.Lowering.Declarations
import ScriptBackend.Proofs.Lowering.Invocations
import ScriptBackend.Proofs.Machine.Engine
import ScriptBackend.Proofs.Machine.Meaning
import ScriptBackend.Proofs.Machine.Values
import ScriptBackend.Proofs.Machine.Assignments
import ScriptBackend.Proofs.Lowering.CaseKeys
import ScriptBackend.Proofs.Machine.Regions
import ScriptBackend.Proofs.Machine.Conditions
import ScriptBackend.Proofs.Graph.Shortest
import ScriptBackend.Proofs.Flow.Defects
import ScriptBackend.Proofs.Machine.Discards
import ScriptBackend.Proofs.Lowering.Pieces
import ScriptBackend.Proofs.Lowering.LineTable
import ScriptBackend.Proofs.Code.Slots
import ScriptBackend.Proofs.Lowering.Trailers
import ScriptBackend.Proofs.Checker.Lifetimes
import ScriptBackend.Proofs.Symbol.Identity

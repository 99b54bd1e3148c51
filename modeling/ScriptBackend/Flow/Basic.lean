import ScriptBackend.Code.Layout
import ScriptBackend.Diagnostic
import ScriptBackend.Graph.Digraph
import ScriptBackend.Pointer.Effects

/-!
# Flow graphs

The flow graph of a script has a node for the entry, one for every instruction that is not a marker,
and one for every outcome of a command on which pointers become valid. Its edges say where control
goes next and why.
-/

namespace ScriptBackend

/-- The place of an instruction in the layout. -/
structure Location where
  /-- The position of the block. -/
  block : Nat
  /-- The position within the block, markers counted. -/
  index : Nat
  deriving DecidableEq, Repr

/-- A location reads as its two positions around a dot. -/
def Location.text (location : Location) : String :=
  toString location.block ++ "." ++ toString location.index

/-- A node of a flow graph. -/
inductive FlowNode where
  /-- Where control starts. -/
  | entry
  /-- An instruction at its place. -/
  | code (location : Location) (instruction : Instruction)
  /-- An outcome on which pointers become valid. -/
  | validated (pointers : PointerSet)
  deriving DecidableEq, Repr

namespace FlowNode

/-- The instruction of a node. -/
def instruction? : FlowNode → Option Instruction
  | .code _ instruction => some instruction
  | .entry | .validated _ => none

/-- The place of a node's instruction. -/
def location? : FlowNode → Option Location
  | .code location _ => some location
  | .entry | .validated _ => none

/-- The opcode of a node's instruction. -/
def opcode? (node : FlowNode) : Option Opcode := node.instruction?.map Instruction.opcode

/-- The position that a node's instruction was emitted for. -/
def span? (node : FlowNode) : Option Span := node.instruction?.bind Instruction.span

/-- A node as it reads in a message. -/
def text : FlowNode → String
  | .entry => "entry"
  | .code _ instruction => instruction.text
  | .validated pointers => "set " ++ pointers.text

end FlowNode

/-- Why control follows an edge. -/
inductive FlowEdge where
  /-- It starts. -/
  | entry
  /-- It continues with the next instruction. -/
  | fallthrough
  /-- It takes a branch. -/
  | branch
  /-- A case of a switch matches. -/
  | switchCase
  /-- It goes on from an outcome that made pointers valid. -/
  | conditional
  deriving DecidableEq, Repr

/-- The word for the reason of an edge. -/
def FlowEdge.name : FlowEdge → String
  | .entry => "entry"
  | .fallthrough => "fallthrough"
  | .branch => "branch"
  | .switchCase => "switch"
  | .conditional => "conditional"

/-- The flow graph of a script. -/
abbrev FlowGraph := Digraph FlowNode FlowEdge

namespace FlowGraph

/-- The position of the entry node. -/
def entry : Nat := 0

/-- What a node stands for. -/
def node (graph : FlowGraph) (index : Nat) : FlowNode := graph.nodes.getD index .entry

/-- The node of the instruction at a location. -/
def nodeAt? (graph : FlowGraph) (location : Location) : Option Nat :=
  graph.nodes.findIdx? fun node => node.location? = some location

/-- The positions of the nodes whose instruction has an opcode. -/
def nodesWith (graph : FlowGraph) (opcode : Opcode) : List Nat :=
  (List.range graph.size).filter fun index => (graph.node index).opcode? = some opcode

end FlowGraph

/-- What an instruction refers to. -/
inductive Reference where
  | label
  | table
  deriving DecidableEq, Repr

/-- The name of a reference. -/
def Reference.name : Reference → String
  | .label => "label"
  | .table => "switch table"

/-- Why an instruction has no flow. -/
inductive FlowCause where
  /-- No block bears the label. -/
  | unknownLabel (label : Label)
  /-- No switch table has the number. -/
  | unknownTable (id : Nat)
  /-- The operand is not of the kind that the opcode needs. -/
  | missingOperand (opcode : Opcode) (expected : Reference)
  deriving DecidableEq, Repr

/-- The message of a cause. -/
def FlowCause.message : FlowCause → String
  | .unknownLabel label => "branch to unknown label '" ++ label.name ++ "'"
  | .unknownTable id => "switch references unknown table " ++ toString id
  | .missingOperand opcode expected => opcode.name ++ " without a " ++ expected.name ++ " operand"

/-- An instruction that has no flow. -/
structure FlowError where
  /-- Why it has none. -/
  cause : FlowCause
  /-- The position it was emitted for. -/
  span : Span
  deriving DecidableEq, Repr

namespace FlowError

/-- An error of an instruction; an instruction without a position counts as unknown. -/
def ofInstruction (instruction : Instruction) (cause : FlowCause) : FlowError :=
  ⟨cause, instruction.span.getD .unknown⟩

/-- The message of an error. -/
def message (error : FlowError) : String := error.cause.message

/-- The diagnostic that reports an error. -/
def diagnostic (error : FlowError) : Diagnostic :=
  .error error.span ("internal compiler error: " ++ error.message)

end FlowError

end ScriptBackend

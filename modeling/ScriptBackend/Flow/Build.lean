import ScriptBackend.Code.Program
import ScriptBackend.Flow.Basic

/-!
# Building flow graphs

The real instructions of a script, markers left out, form one sequence in layout order, and a label
leads to the first of them at or after the start of its block. Each instruction has links: to the
next one unless it is terminal, to the target of its branch, and to every case of its switch that
has a key. Links that leave past the last instruction are dropped.

A command with a conditional contract whose result is compared with zero or one makes its pointers
valid on the successful outcome of the comparison. The link of that outcome passes through a node
of its own.
-/

namespace ScriptBackend

/-- The real instructions of a script with their places, in layout order. -/
def CompiledScript.sequence (script : CompiledScript) : List (Location × Instruction) :=
  script.blocks.zipIdx.flatMap fun (block, position) =>
    (block.instructions.zipIdx.filter fun (instruction, _) => !instruction.opcode.isMarker).map
      fun (instruction, index) => (⟨position, index⟩, instruction)

/-- For each block the position of its own first real instruction, none if it has none, where a
number of real instructions stand before all the blocks. -/
def ownStarts (before : Nat) : List Block → List (Option Nat)
  | [] => []
  | block :: rest =>
    (if block.real.isEmpty then none else some before) ::
      ownStarts (before + block.real.length) rest

/-- The starts of blocks, from the last to the first, where one without a start gets that of the
block after it. -/
def fillStarts : List (Option Nat) → List (Option Nat)
  | [] => []
  | start :: rest =>
    let later := fillStarts rest
    start.or later.head?.join :: later

/-- The position in the sequence of the first real instruction of a block, where a block that has
none falls into the next one that has. -/
def CompiledScript.blockStart? (script : CompiledScript) (block : Nat) : Option Nat :=
  (fillStarts (ownStarts 0 script.blocks))[block]?.join

/-- An outcome of a comparison on which pointers become valid. -/
structure SuccessOutcome where
  /-- The pointers that become valid. -/
  pointers : PointerSet
  /-- Whether the outcome is the one that takes the branch. -/
  onBranch : Bool
  deriving DecidableEq, Repr

/-- The pointers that a command sets only on success. -/
def Instruction.conditionalSet? (contracts : Contracts) (instruction : Instruction) :
    Option PointerSet :=
  match instruction.opcode, instruction.symbol? with
  | .command, some (.command symbol) =>
    let effects := contracts.get symbol.name
    if effects.conditional && !effects.set.isEmpty then some effects.set else none
  | _, _ => none

/-- Whether a comparison of a result with a pushed integer branches on success, for those
comparisons that tell success from failure. -/
def branchesOnSuccess? (push branch : Instruction) : Option Bool :=
  match branch.opcode with
  | .branchEquals =>
    if push.isPushInt 1 then some true else if push.isPushInt 0 then some false else none
  | .branchNot =>
    if push.isPushInt 0 then some true else if push.isPushInt 1 then some false else none
  | _ => none

/-- The successful outcome of three instructions: a command, a push and a comparison. -/
def successOutcome? (contracts : Contracts) (command push branch : Instruction) :
    Option SuccessOutcome :=
  match command.conditionalSet? contracts, branchesOnSuccess? push branch with
  | some pointers, some onBranch => some ⟨pointers, onBranch⟩
  | _, _ => none

/-- The successful outcome of the comparison at a position of a sequence. -/
def successOutcomeAt? (contracts : Contracts) (sequence : List Instruction) :
    Nat → Option SuccessOutcome
  | 0 | 1 => none
  | position + 2 =>
    match sequence[position]?, sequence[position + 1]?, sequence[position + 2]? with
    | some command, some push, some branch => successOutcome? contracts command push branch
    | _, _, _ => none

/-- A way that control may take from an instruction. -/
structure Link where
  /-- The position of the instruction that is reached. -/
  target : Nat
  /-- Why control goes there. -/
  kind : FlowEdge
  /-- The pointers that become valid on the way, if any. -/
  via : Option PointerSet := none
  deriving DecidableEq, Repr

/-- The position that a label leads to: none past the last instruction. -/
def CompiledScript.resolve (script : CompiledScript) (instruction : Instruction) (label : Label) :
    Except FlowError (Option Nat) :=
  match script.blockIndex? label with
  | some block => .ok (script.blockStart? block)
  | none => .error (.ofInstruction instruction (.unknownLabel label))

/-- The link to the next instruction, unless there is none or control never gets there. -/
def nextLinks (sequence : List Instruction) (position : Nat) (instruction : Instruction)
    (outcome : Option SuccessOutcome) : List Link :=
  if !instruction.opcode.isTerminal && position + 1 < sequence.length then
    [⟨position + 1, .fallthrough, (outcome.filter fun success => !success.onBranch).map
      SuccessOutcome.pointers⟩]
  else []

/-- The links to the target of a branch. -/
def CompiledScript.branchLinks (script : CompiledScript) (instruction : Instruction)
    (outcome : Option SuccessOutcome) : Except FlowError (List Link) :=
  match instruction.label? with
  | none => .error (.ofInstruction instruction (.missingOperand instruction.opcode .label))
  | some label => do
    let target ← script.resolve instruction label
    return target.toList.map fun position =>
      ⟨position, .branch, (outcome.filter SuccessOutcome.onBranch).map SuccessOutcome.pointers⟩

/-- The links to the cases of a switch that have a key. -/
def CompiledScript.switchLinks (script : CompiledScript) (instruction : Instruction) :
    Except FlowError (List Link) :=
  match instruction.table? with
  | none => .error (.ofInstruction instruction (.missingOperand instruction.opcode .table))
  | some id =>
    match script.table? id with
    | none => .error (.ofInstruction instruction (.unknownTable id))
    | some table => do
      let targets ← (table.cases.filter fun case => !case.keys.isEmpty).mapM fun case =>
        script.resolve instruction case.label
      return targets.filterMap fun target =>
        target.map fun position => ⟨position, .switchCase, none⟩

/-- All links of the instruction at a position. -/
def CompiledScript.links (script : CompiledScript) (contracts : Contracts)
    (sequence : List Instruction) (position : Nat) (instruction : Instruction) :
    Except FlowError (List Link) := do
  let outcome := successOutcomeAt? contracts sequence position
  let jumps ←
    if instruction.opcode.isBranch then script.branchLinks instruction outcome
    else if instruction.opcode = .switch then script.switchLinks instruction
    else pure []
  return nextLinks sequence position instruction outcome ++ jumps

namespace FlowGraph

/-- The node of the instruction at a position of the sequence. -/
def nodeOfPosition (position : Nat) : Nat := position + 1

/-- Add a link from the instruction at a position; a link on which pointers become valid gets a node
of its own. -/
def addLink (graph : FlowGraph) (position : Nat) (link : Link) : FlowGraph :=
  match link.via with
  | none => graph.addEdge (nodeOfPosition position) (nodeOfPosition link.target) link.kind
  | some pointers =>
    ((graph.addNode (.validated pointers)).addEdge (nodeOfPosition position) graph.size
      link.kind).addEdge graph.size (nodeOfPosition link.target) .conditional

/-- The graph of the entry and the instructions, with the edge that control starts by. -/
def ofSequence (sequence : List (Location × Instruction)) : FlowGraph where
  nodes := .entry :: sequence.map fun (location, instruction) => .code location instruction
  edges := if sequence.isEmpty then [] else [⟨entry, nodeOfPosition 0, .entry⟩]

/-- The graph with the links of each position added in order. -/
def addLinks (graph : FlowGraph) (links : List (List Link)) : FlowGraph :=
  links.zipIdx.foldl (fun graph (links, position) =>
    links.foldl (fun graph link => graph.addLink position link) graph) graph

/-- The flow graph of a script, or the error of its first instruction that has no flow. -/
def build (script : CompiledScript) (contracts : Contracts) : Except FlowError FlowGraph := do
  let instructions := script.sequence.map Prod.snd
  let links ← instructions.zipIdx.mapM fun (instruction, position) =>
    script.links contracts instructions position instruction
  return (ofSequence script.sequence).addLinks links

end FlowGraph

end ScriptBackend

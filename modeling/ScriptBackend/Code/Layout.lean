import ScriptBackend.Code.Instruction

/-!
# Blocks and switch tables

Code is laid out in labelled blocks. Control that reaches the end of a block continues with the
next one, unless the last instruction that is not a marker is terminal. A switch table sends each
of its keys to a label, the first case that has the key winning.
-/

namespace ScriptBackend

/-- A labelled run of instructions. -/
structure Block where
  /-- The label that branches reach the block by. -/
  label : Label
  /-- The instructions, markers included. -/
  instructions : List Instruction := []
  deriving DecidableEq, Repr

namespace Block

/-- The block with one more instruction at its end. -/
def push (block : Block) (instruction : Instruction) : Block :=
  { block with instructions := block.instructions ++ [instruction] }

/-- The instructions that are not markers. -/
def real (block : Block) : List Instruction :=
  block.instructions.filter fun instruction => !instruction.opcode.isMarker

/-- The last instruction that is not a marker. -/
def lastReal? (block : Block) : Option Instruction := block.real.getLast?

/-- Whether control can continue with the next block. -/
def fallsThrough (block : Block) : Bool :=
  match block.lastReal? with
  | some instruction => !instruction.opcode.isTerminal
  | none => true

end Block

/-- A case of a switch table: every key leads to the label. -/
structure TableCase where
  /-- The keys; none for a case that is only a default. -/
  keys : List Constant
  /-- Where the case starts. -/
  label : Label
  deriving DecidableEq, Repr

/-- The cases of one switch. -/
structure SwitchTable where
  /-- The number by which instructions refer to the table. -/
  id : Nat
  /-- The cases, in order. -/
  cases : List TableCase := []
  deriving DecidableEq, Repr

namespace SwitchTable

/-- The table with one more case at its end. -/
def push (table : SwitchTable) (case : TableCase) : SwitchTable :=
  { table with cases := table.cases ++ [case] }

/-- The first case that has the key. -/
def find? (table : SwitchTable) (key : Constant) : Option TableCase :=
  table.cases.find? fun case => case.keys.any fun candidate => candidate.same key

end SwitchTable

end ScriptBackend

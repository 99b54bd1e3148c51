import ScriptBackend.Tree.Operator
import ScriptBackend.Ty

/-!
# Opcodes

The machine has an integer, a string and a 64-bit stack, and most operations exist once per stack
they work on. Four families matter to control flow: branches carry a label, terminal operations
never continue with the next instruction, and line markers do nothing at all.
-/

namespace ScriptBackend

/-- What an instruction does. -/
inductive Opcode where
  /-- Push an integer. -/
  | pushConstantInt
  /-- Push a string. -/
  | pushConstantString
  /-- Push a 64-bit integer. -/
  | pushConstantLong
  /-- Push a reference to a configuration entry or constant. -/
  | pushConstantSymbol
  /-- Push a local variable. -/
  | pushLocal
  /-- Store the top of a stack into a local variable. -/
  | popLocal
  /-- Create a local array of the size on the stack. -/
  | defineArray
  /-- Push the array element at the index on the stack. -/
  | pushArrayInt
  /-- Store a value into the array element at the index below it. -/
  | popArrayInt
  /-- Push a game variable. -/
  | pushVar
  /-- Store into a game variable. -/
  | popVar
  /-- Push a game variable of the secondary owner. -/
  | pushVar2
  /-- Store into a game variable of the secondary owner. -/
  | popVar2
  /-- Continue at a label. -/
  | branch
  /-- Continue at a label if two integers differ. -/
  | branchNot
  /-- Continue at a label if two integers agree. -/
  | branchEquals
  | branchLessThan
  | branchGreaterThan
  | branchLessThanOrEquals
  | branchGreaterThanOrEquals
  /-- Continue at a label if two 64-bit integers differ. -/
  | longBranchNot
  /-- Continue at a label if two 64-bit integers agree. -/
  | longBranchEquals
  | longBranchLessThan
  | longBranchGreaterThan
  | longBranchLessThanOrEquals
  | longBranchGreaterThanOrEquals
  /-- Continue at a label if two strings or objects differ. -/
  | objBranchNot
  /-- Continue at a label if two strings or objects agree. -/
  | objBranchEquals
  /-- Continue at the label of the matching case of a table, if there is one. -/
  | switch
  /-- Call a proc and continue. -/
  | gosub
  /-- Continue in a label script and never return. -/
  | jump
  /-- Run a command of the engine. -/
  | command
  /-- Leave the script. -/
  | leave
  /-- Join as many strings as the operand says. -/
  | joinString
  /-- Drop the top of a stack. -/
  | discard
  | add
  | sub
  | multiply
  | divide
  | modulo
  | and
  | or
  | longAdd
  | longSub
  | longMultiply
  | longDivide
  | longModulo
  | longAnd
  | longOr
  /-- Mark the source line of what follows. -/
  | lineNumber
  deriving DecidableEq, Repr

/-- A number that is the index of no opcode. -/
structure UnknownOpcode where
  /-- The number. -/
  index : Nat
  deriving DecidableEq, Repr

/-- What is wrong with the number. -/
def UnknownOpcode.message (error : UnknownOpcode) : String :=
  "No discriminant in enum `Opcode` matches the value `" ++ toString error.index ++ "`"

namespace Opcode

/-- Every opcode, by index. -/
def all : List Opcode :=
  [.pushConstantInt, .pushConstantString, .pushConstantLong, .pushConstantSymbol, .pushLocal,
    .popLocal, .defineArray, .pushArrayInt, .popArrayInt, .pushVar, .popVar, .pushVar2, .popVar2,
    .branch, .branchNot, .branchEquals, .branchLessThan, .branchGreaterThan,
    .branchLessThanOrEquals, .branchGreaterThanOrEquals, .longBranchNot, .longBranchEquals,
    .longBranchLessThan, .longBranchGreaterThan, .longBranchLessThanOrEquals,
    .longBranchGreaterThanOrEquals, .objBranchNot, .objBranchEquals, .switch, .gosub, .jump,
    .command, .leave, .joinString, .discard, .add, .sub, .multiply, .divide, .modulo, .and, .or,
    .longAdd, .longSub, .longMultiply, .longDivide, .longModulo, .longAnd, .longOr, .lineNumber]

/-- The name of an opcode in a listing. -/
def name : Opcode → String
  | .pushConstantInt => "PushConstantInt"
  | .pushConstantString => "PushConstantString"
  | .pushConstantLong => "PushConstantLong"
  | .pushConstantSymbol => "PushConstantSymbol"
  | .pushLocal => "PushLocal"
  | .popLocal => "PopLocal"
  | .defineArray => "DefineArray"
  | .pushArrayInt => "PushArrayInt"
  | .popArrayInt => "PopArrayInt"
  | .pushVar => "PushVar"
  | .popVar => "PopVar"
  | .pushVar2 => "PushVar2"
  | .popVar2 => "PopVar2"
  | .branch => "Branch"
  | .branchNot => "BranchNot"
  | .branchEquals => "BranchEquals"
  | .branchLessThan => "BranchLessThan"
  | .branchGreaterThan => "BranchGreaterThan"
  | .branchLessThanOrEquals => "BranchLessThanOrEquals"
  | .branchGreaterThanOrEquals => "BranchGreaterThanOrEquals"
  | .longBranchNot => "LongBranchNot"
  | .longBranchEquals => "LongBranchEquals"
  | .longBranchLessThan => "LongBranchLessThan"
  | .longBranchGreaterThan => "LongBranchGreaterThan"
  | .longBranchLessThanOrEquals => "LongBranchLessThanOrEquals"
  | .longBranchGreaterThanOrEquals => "LongBranchGreaterThanOrEquals"
  | .objBranchNot => "ObjBranchNot"
  | .objBranchEquals => "ObjBranchEquals"
  | .switch => "Switch"
  | .gosub => "Gosub"
  | .jump => "Jump"
  | .command => "Command"
  | .leave => "Return"
  | .joinString => "JoinString"
  | .discard => "Discard"
  | .add => "Add"
  | .sub => "Sub"
  | .multiply => "Multiply"
  | .divide => "Divide"
  | .modulo => "Modulo"
  | .and => "And"
  | .or => "Or"
  | .longAdd => "LongAdd"
  | .longSub => "LongSub"
  | .longMultiply => "LongMultiply"
  | .longDivide => "LongDivide"
  | .longModulo => "LongModulo"
  | .longAnd => "LongAnd"
  | .longOr => "LongOr"
  | .lineNumber => "LineNumber"

/-- The stable index of an opcode. -/
def index (opcode : Opcode) : Nat := all.idxOf opcode

/-- The opcode of an index. -/
def ofIndex (index : Nat) : Except UnknownOpcode Opcode :=
  match all[index]? with
  | some opcode => .ok opcode
  | none => .error ⟨index⟩

/-- The opcode of a name. -/
def ofName? (text : String) : Option Opcode := all.find? fun opcode => opcode.name = text

/-- Branches are the operations that carry a label. -/
def isBranch : Opcode → Bool
  | .branch | .branchNot | .branchEquals | .branchLessThan | .branchGreaterThan
  | .branchLessThanOrEquals | .branchGreaterThanOrEquals | .longBranchNot | .longBranchEquals
  | .longBranchLessThan | .longBranchGreaterThan | .longBranchLessThanOrEquals
  | .longBranchGreaterThanOrEquals | .objBranchNot | .objBranchEquals => true
  | _ => false

/-- Conditional branches compare two values and may also continue with the next instruction. -/
def isConditional (opcode : Opcode) : Bool := opcode.isBranch && opcode != .branch

/-- Terminal operations never continue with the next instruction. -/
def isTerminal : Opcode → Bool
  | .branch | .jump | .leave => true
  | _ => false

/-- Markers have no effect on control or stacks. -/
def isMarker (opcode : Opcode) : Bool := opcode == .lineNumber

/-- The index of an opcode stands for it. -/
theorem ofIndex_index (opcode : Opcode) : ofIndex opcode.index = .ok opcode := by
  cases opcode <;> rfl

end Opcode

/-- The branch that takes a comparison of two values of a stack; strings can only be told equal or
different. -/
def Comparison.branch? : Comparison → StackType → Option Opcode
  | .equals, .integer => some .branchEquals
  | .notEquals, .integer => some .branchNot
  | .lessThan, .integer => some .branchLessThan
  | .greaterThan, .integer => some .branchGreaterThan
  | .lessThanOrEquals, .integer => some .branchLessThanOrEquals
  | .greaterThanOrEquals, .integer => some .branchGreaterThanOrEquals
  | .equals, .long => some .longBranchEquals
  | .notEquals, .long => some .longBranchNot
  | .lessThan, .long => some .longBranchLessThan
  | .greaterThan, .long => some .longBranchGreaterThan
  | .lessThanOrEquals, .long => some .longBranchLessThanOrEquals
  | .greaterThanOrEquals, .long => some .longBranchGreaterThanOrEquals
  | .equals, .string => some .objBranchEquals
  | .notEquals, .string => some .objBranchNot
  | _, .string => none

/-- The operation that computes an arithmetic operator on a stack; strings have none. -/
def ArithmeticOp.opcode? : ArithmeticOp → StackType → Option Opcode
  | .add, .integer => some .add
  | .sub, .integer => some .sub
  | .multiply, .integer => some .multiply
  | .divide, .integer => some .divide
  | .modulo, .integer => some .modulo
  | .and, .integer => some .and
  | .or, .integer => some .or
  | .add, .long => some .longAdd
  | .sub, .long => some .longSub
  | .multiply, .long => some .longMultiply
  | .divide, .long => some .longDivide
  | .modulo, .long => some .longModulo
  | .and, .long => some .longAnd
  | .or, .long => some .longOr
  | _, .string => none

/-- Every branch taken for a comparison is conditional. -/
theorem Comparison.isConditional_of_branch? {comparison : Comparison} {stack : StackType}
    {opcode : Opcode} (h : comparison.branch? stack = some opcode) :
    opcode.isConditional = true := by
  cases comparison <;> cases stack <;> cases h <;> rfl

end ScriptBackend

import ScriptBackend.Code.Opcode
import ScriptBackend.Span
import ScriptBackend.Symbol.Basic
import ScriptBackend.Text.Quoted

/-!
# Instructions

An instruction is an opcode, an operand and the position it was emitted for. Nothing forces the
operand to fit the opcode; readers of an instruction ask for the operand they need. Constants are
the values that the keys of a switch fold to.
-/

namespace ScriptBackend

/-- The identity of a place that branches lead to. -/
structure Label where
  /-- The label's name. -/
  name : String
  deriving DecidableEq, Repr

/-- The operand of an instruction. -/
inductive Operand where
  | none
  | int (value : Int32)
  | long (value : Int64)
  | string (value : String)
  | symbol (referent : Symbol)
  | label (target : Label)
  /-- A switch table, by its number. -/
  | table (id : Nat)
  /-- How many values are consumed. -/
  | count (number : Nat)
  /-- A stack to work on. -/
  | stack (which : StackType)
  /-- A source line. -/
  | line (number : Nat)
  deriving DecidableEq, Repr

/-- An operand as it reads in a listing. -/
def Operand.text : Operand → String
  | .none => ""
  | .int value => toString value
  | .long value => toString value ++ "L"
  | .string value => Text.quote value
  | .symbol referent => referent.text
  | .label target => target.name
  | .table id => "table" ++ toString id
  | .count number => toString number
  | .stack which => which.name
  | .line number => "line " ++ toString number

/-- The word for the kind of an operand; a symbol counts by its own kind. -/
def Operand.kindName : Operand → String
  | .none => "none"
  | .int _ => "int"
  | .long _ => "long"
  | .string _ => "string"
  | .symbol referent => referent.kindName
  | .label _ => "label"
  | .table _ => "switch"
  | .count _ => "count"
  | .stack _ => "base"
  | .line _ => "line"

/-- A single operation of the machine. -/
structure Instruction where
  /-- What is done. -/
  opcode : Opcode
  /-- What it is done with. -/
  operand : Operand := .none
  /-- The position it was emitted for. -/
  span : Option Span := none
  deriving DecidableEq, Repr

namespace Instruction

/-- The instruction placed at a position. -/
def atSpan (instruction : Instruction) (span : Span) : Instruction :=
  { instruction with span := some span }

/-- Push an integer. -/
def pushInt (value : Int32) : Instruction := { opcode := .pushConstantInt, operand := .int value }

/-- Push a string. -/
def pushString (value : String) : Instruction :=
  { opcode := .pushConstantString, operand := .string value }

/-- Push a 64-bit integer. -/
def pushLong (value : Int64) : Instruction :=
  { opcode := .pushConstantLong, operand := .long value }

/-- An operation on a symbol. -/
def onSymbol (opcode : Opcode) (symbol : Symbol) : Instruction :=
  { opcode, operand := .symbol symbol }

/-- A branch to a label. -/
def branchTo (opcode : Opcode) (label : Label) : Instruction := { opcode, operand := .label label }

/-- The label that an instruction names. -/
def label? (instruction : Instruction) : Option Label :=
  match instruction.operand with
  | .label target => some target
  | _ => none

/-- The integer that an instruction carries. -/
def int? (instruction : Instruction) : Option Int32 :=
  match instruction.operand with
  | .int value => some value
  | _ => none

/-- The symbol that an instruction works on. -/
def symbol? (instruction : Instruction) : Option Symbol :=
  match instruction.operand with
  | .symbol referent => some referent
  | _ => none

/-- The switch table that an instruction refers to. -/
def table? (instruction : Instruction) : Option Nat :=
  match instruction.operand with
  | .table id => some id
  | _ => none

/-- Whether an instruction pushes exactly this integer. -/
def isPushInt (instruction : Instruction) (value : Int32) : Bool :=
  instruction.opcode = .pushConstantInt && instruction.int? = some value

/-- An instruction reads as its opcode, followed by its operand if it has one. -/
def text (instruction : Instruction) : String :=
  match instruction.operand with
  | .none => instruction.opcode.name
  | operand => instruction.opcode.name ++ " " ++ operand.text

end Instruction

/-- A value that a key of a switch stands for. -/
inductive Constant where
  | int (value : Int32)
  | long (value : Int64)
  | string (value : String)
  /-- A configuration entry or constant. -/
  | symbol (referent : Symbol)
  deriving DecidableEq, Repr

namespace Constant

/-- A constant as it reads in a listing. -/
def text : Constant → String
  | .int value => toString value
  | .long value => toString value ++ "L"
  | .string value => Text.quote value
  | .symbol referent => referent.text

/-- The word for the kind of a constant; a symbol counts by its own kind. -/
def kindName : Constant → String
  | .int _ => "int"
  | .long _ => "long"
  | .string _ => "string"
  | .symbol referent => referent.kindName

/-- Two constants are the same: symbols as symbols are, all others by value. -/
def same : Constant → Constant → Bool
  | .symbol s, .symbol t => s.same t
  | .symbol _, _ | _, .symbol _ => false
  | s, t => s = t

/-- Every constant is the same as itself. -/
@[simp] theorem same_self (constant : Constant) : constant.same constant = true := by
  cases constant <;> simp [same]

end Constant

end ScriptBackend

import ScriptBackend.Code.Instruction

/-!
# Effects on the stacks

Every value on a stack is of the stack's own type, so the three heights say all that matters to
whether an instruction finds its operands. An instruction pops some values and then pushes others,
each on the stack of its type. What a switch pops is the value of its subject; the instruction names
only its table, so the stack is looked up by the number of the table.
-/

namespace ScriptBackend

/-- The stacks of the values of some types, in order; types without a stack are left out. -/
def stackTypesOf (types : List Ty) : List StackType := types.filterMap Ty.stackType?

/-- The heights of the three stacks. -/
abbrev Heights := StackType → Nat

namespace Heights

/-- All stacks are empty. -/
def empty : Heights := fun _ => 0

/-- The heights after values were pushed, each on its stack. -/
def push (heights : Heights) (values : List StackType) : Heights :=
  fun stack => heights stack + values.count stack

/-- Whether the stacks hold enough for some values to be popped. -/
def Holds (heights : Heights) (values : List StackType) : Prop :=
  ∀ stack, values.count stack ≤ heights stack

/-- The heights after values were popped. -/
def pop (heights : Heights) (values : List StackType) : Heights :=
  fun stack => heights stack - values.count stack

variable (heights : Heights) (first second : List StackType)

@[simp] theorem push_nil : heights.push [] = heights := rfl

/-- Values that are pushed after others. -/
theorem push_append : heights.push (first ++ second) = (heights.push first).push second := by
  funext stack
  simp only [push, List.count_append]
  omega

/-- What was pushed can be popped. -/
theorem holds_push : (heights.push first).Holds first := fun _ => Nat.le_add_left ..

/-- Popping what was pushed restores the heights. -/
@[simp] theorem pop_push : (heights.push first).pop first = heights := by
  funext stack
  exact Nat.add_sub_cancel ..

/-- Nothing can always be popped. -/
theorem holds_nil : heights.Holds [] := fun _ => Nat.zero_le _

end Heights

/-- What an instruction does to the stacks. -/
structure StackEffect where
  /-- The stacks that values are popped from. -/
  pops : List StackType
  /-- The stacks that values are pushed on. -/
  pushes : List StackType
  deriving DecidableEq, Repr

/-- The heights after an effect. -/
def StackEffect.apply (effect : StackEffect) (heights : Heights) : Heights :=
  (heights.pop effect.pops).push effect.pushes

/-- An effect takes its operands off the top and leaves its results. -/
@[simp] theorem StackEffect.apply_push (pops pushes : List StackType) (heights : Heights) :
    StackEffect.apply ⟨pops, pushes⟩ (heights.push pops) = heights.push pushes := by
  rw [apply, Heights.pop_push]

namespace Instruction

/-- The number of values that an instruction consumes, if it says so. -/
def count? (instruction : Instruction) : Option Nat :=
  match instruction.operand with
  | .count number => some number
  | _ => none

/-- The stack that an instruction works on, if it says so. -/
def stack? (instruction : Instruction) : Option StackType :=
  match instruction.operand with
  | .stack which => some which
  | _ => none

/-- The stack of the game variable that an instruction works on. -/
def gameStack? (instruction : Instruction) : Option StackType :=
  (instruction.symbol?.bind Symbol.game?).bind fun symbol => symbol.ty.stackType?

/-- The stack of the local variable that an instruction works on. -/
def localStack? (instruction : Instruction) : Option StackType :=
  (instruction.symbol?.bind Symbol.local?).map LocalSymbol.space

/-- What an instruction does to the stacks, where `subjects` tells the stack of the subject of a
switch by the number of its table. An instruction whose operand does not fit has no effect. -/
def effect? (subjects : Nat → Option StackType) (instruction : Instruction) :
    Option StackEffect :=
  match instruction.opcode with
  | .pushConstantInt | .pushConstantSymbol => some ⟨[], [.integer]⟩
  | .pushConstantString => some ⟨[], [.string]⟩
  | .pushConstantLong => some ⟨[], [.long]⟩
  | .pushLocal => instruction.localStack?.map fun stack => ⟨[], [stack]⟩
  | .popLocal => instruction.localStack?.map fun stack => ⟨[stack], []⟩
  | .defineArray => some ⟨[.integer], []⟩
  | .pushArrayInt => some ⟨[.integer], [.integer]⟩
  | .popArrayInt => some ⟨[.integer, .integer], []⟩
  | .pushVar | .pushVar2 => instruction.gameStack?.map fun stack => ⟨[], [stack]⟩
  | .popVar | .popVar2 => instruction.gameStack?.map fun stack => ⟨[stack], []⟩
  | .branchNot | .branchEquals | .branchLessThan | .branchGreaterThan | .branchLessThanOrEquals
  | .branchGreaterThanOrEquals => some ⟨[.integer, .integer], []⟩
  | .longBranchNot | .longBranchEquals | .longBranchLessThan | .longBranchGreaterThan
  | .longBranchLessThanOrEquals | .longBranchGreaterThanOrEquals => some ⟨[.long, .long], []⟩
  | .objBranchNot | .objBranchEquals => some ⟨[.string, .string], []⟩
  | .switch => (instruction.table?.bind subjects).map fun stack => ⟨[stack], []⟩
  | .gosub => (instruction.symbol?.bind Symbol.script?).map fun symbol =>
      ⟨stackTypesOf symbol.parameters, stackTypesOf symbol.returns⟩
  | .jump => (instruction.symbol?.bind Symbol.script?).map fun symbol =>
      ⟨stackTypesOf symbol.parameters, []⟩
  | .command => (instruction.symbol?.bind Symbol.command?).map fun symbol =>
      ⟨stackTypesOf symbol.parameters, stackTypesOf symbol.returns⟩
  | .joinString => instruction.count?.map fun number => ⟨List.replicate number .string, [.string]⟩
  | .discard => instruction.stack?.map fun stack => ⟨[stack], []⟩
  | .add | .sub | .multiply | .divide | .modulo | .and | .or =>
      some ⟨[.integer, .integer], [.integer]⟩
  | .longAdd | .longSub | .longMultiply | .longDivide | .longModulo | .longAnd | .longOr =>
      some ⟨[.long, .long], [.long]⟩
  | .branch | .leave | .lineNumber => some ⟨[], []⟩

end Instruction

/-- Whether an operation always continues with the next instruction. -/
def Opcode.goesOn (opcode : Opcode) : Bool :=
  !opcode.isTerminal && !opcode.isBranch && opcode != .switch

/-- Whether instructions that all continue with the next one run from some heights to others and
find their operands. -/
inductive Runs (subjects : Nat → Option StackType) :
    Heights → List Instruction → Heights → Prop where
  | nil {heights : Heights} : Runs subjects heights [] heights
  | cons {heights final : Heights} {instruction : Instruction} {rest : List Instruction}
      {effect : StackEffect} (hflow : instruction.opcode.goesOn = true)
      (heffect : instruction.effect? subjects = some effect) (hholds : heights.Holds effect.pops)
      (hrest : Runs subjects (effect.apply heights) rest final) :
      Runs subjects heights (instruction :: rest) final

namespace Runs

variable {subjects : Nat → Option StackType} {start middle final : Heights}
  {first second : List Instruction}

/-- Instructions after instructions run from where the first end. -/
theorem append (hfirst : Runs subjects start first middle)
    (hsecond : Runs subjects middle second final) :
    Runs subjects start (first ++ second) final := by
  induction hfirst with
  | nil => exact hsecond
  | cons hflow heffect hholds _ ih => exact .cons hflow heffect hholds (ih hsecond)

/-- An instruction that finds its operands on top leaves its results. -/
theorem single {instruction : Instruction} {pops pushes : List StackType} (heights : Heights)
    (hflow : instruction.opcode.goesOn = true)
    (heffect : instruction.effect? subjects = some ⟨pops, pushes⟩) :
    Runs subjects (heights.push pops) [instruction] (heights.push pushes) := by
  refine .cons hflow heffect (heights.holds_push pops) ?_
  rw [StackEffect.apply_push]
  exact .nil

end Runs

end ScriptBackend

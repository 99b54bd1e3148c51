import ScriptBackend.Proofs.Stacks.Effects

/-!
# The machine

The machine holds values on three stacks, one for each type of value. All that lies outside the
stacks is left to an engine: what a reference to a symbol is, how arithmetic comes out, what
variables hold and what commands and procs do. An engine may change the world with each of these, so
the order in which the machine asks it can always be observed.

An instruction without control flow takes its operands off the stacks, hands them to the engine and
pushes what the engine gives back. What was pushed comes off again in the reverse order, whichever
stacks the values are on, so an instruction finds its operands wherever they were pushed last.
-/

namespace ScriptBackend

/-- A value on one of the stacks. -/
inductive Value where
  | integer (number : Int32)
  | string (text : String)
  | long (number : Int64)
  deriving DecidableEq, Repr

/-- The stack that a value is on. -/
def Value.stack : Value → StackType
  | .integer _ => .integer
  | .string _ => .string
  | .long _ => .long

/-- The text of a string. -/
def Value.text? : Value → Option String
  | .string text => some text
  | .integer _ | .long _ => none

/-- Two values, each of its stack. -/
theorem exists_pair_of_stacks {values : List Value} {first second : StackType}
    (h : values.map Value.stack = [first, second]) :
    ∃ left right, values = [left, right] ∧ left.stack = first ∧ right.stack = second := by
  obtain ⟨left, rest, rfl, hleft, hrest⟩ := List.map_eq_cons_iff.mp h
  obtain ⟨right, rfl, hright⟩ := List.map_eq_singleton_iff.mp hrest
  exact ⟨left, right, rfl, hleft, hright⟩

/-- Values of some stacks, in order. -/
def Values (kinds : List StackType) : Type :=
  { values : List Value // values.map Value.stack = kinds }

/-- What the machine leaves to its surroundings. Everything may depend on the world and change
it. -/
structure Engine (World : Type) where
  /-- The integer that refers to a configuration entry or constant. -/
  reference : Symbol → StateM World Int32
  /-- Arithmetic on integers. -/
  integerOp : ArithmeticOp → Int32 → Int32 → StateM World Int32
  /-- Arithmetic on 64-bit integers. -/
  longOp : ArithmeticOp → Int64 → Int64 → StateM World Int64
  /-- The value of a local variable. -/
  readLocal : (symbol : LocalSymbol) → StateM World (Values [symbol.space])
  /-- Store into a local variable. -/
  writeLocal : LocalSymbol → Value → StateM World Unit
  /-- Create a local array of a size. -/
  defineArray : LocalSymbol → Int32 → StateM World Unit
  /-- The element of a local array at an index. -/
  readElement : LocalSymbol → Int32 → StateM World Int32
  /-- Store into the element of a local array at an index. -/
  writeElement : LocalSymbol → Int32 → Int32 → StateM World Unit
  /-- The value of a game variable, of the secondary owner if so told. -/
  readGame : Bool → (symbol : GameSymbol) → StateM World (Values [symbol.ty.slotSpace])
  /-- Store into a game variable, of the secondary owner if so told. -/
  writeGame : Bool → GameSymbol → Value → StateM World Unit
  /-- Run a command on arguments; it gives the values that it returns. -/
  command : (symbol : CommandSymbol) → List Value →
    StateM World (Values (stackTypesOf symbol.returns))
  /-- Call a proc with arguments; it gives the values that it returns. -/
  gosub : (symbol : ScriptSymbol) → List Value →
    StateM World (Values (stackTypesOf symbol.returns))

/-- Zeros and empty strings. -/
def Values.blank (kinds : List StackType) : Values kinds :=
  ⟨kinds.map fun
    | .integer => .integer 0
    | .string => .string ""
    | .long => .long 0, by
    rw [List.map_map, List.map_congr_left, List.map_id]
    intro kind _
    cases kind <;> rfl⟩

/-- The usual meaning of arithmetic, on numbers of any width. -/
def ArithmeticOp.compute {α : Type} [Add α] [Sub α] [Mul α] [Div α] [Mod α] [AndOp α] [OrOp α] :
    ArithmeticOp → α → α → α
  | .add => (· + ·)
  | .sub => (· - ·)
  | .multiply => (· * ·)
  | .divide => (· / ·)
  | .modulo => (· % ·)
  | .and => (· &&& ·)
  | .or => (· ||| ·)

/-- An engine that computes, but holds and returns only zeros and empty strings. Its world is what
was stored, run and called so far, each by its name with the values that it was given. -/
def Engine.recorder : Engine (List (String × List Value)) where
  reference _ := pure 0
  integerOp op left right := pure (op.compute left right)
  longOp op left right := pure (op.compute left right)
  readLocal _ := pure (.blank _)
  writeLocal symbol value := modify (· ++ [(symbol.name, [value])])
  defineArray symbol size := modify (· ++ [(symbol.name, [.integer size])])
  readElement _ _ := pure 0
  writeElement symbol index value :=
    modify (· ++ [(symbol.name, [.integer index, .integer value])])
  readGame _ _ := pure (.blank _)
  writeGame _ symbol value := modify (· ++ [(symbol.name, [value])])
  command symbol args := do
    modify (· ++ [(symbol.name, args)])
    return .blank _
  gosub symbol args := do
    modify (· ++ [(symbol.name, args)])
    return .blank _

/-- What a part of a script does, given what it needs, or that it can do nothing. -/
abbrev Act (World : Type) := Option (StateM World (List Value))

/-- The three stacks, each from its top. -/
structure Stacks where
  integers : List Int32 := []
  strings : List String := []
  longs : List Int64 := []
  deriving DecidableEq, Repr

namespace Stacks

/-- The stacks with a value pushed on the stack of its type. -/
def push (base : Stacks) : Value → Stacks
  | .integer number => { base with integers := number :: base.integers }
  | .string text => { base with strings := text :: base.strings }
  | .long number => { base with longs := number :: base.longs }

/-- The stacks with values pushed, the last topmost. -/
def pushAll (base : Stacks) (values : List Value) : Stacks := values.foldl push base

/-- Take the top off a stack. -/
def pop (base : Stacks) : StackType → Option (Value × Stacks)
  | .integer =>
    match base.integers with
    | [] => none
    | top :: rest => some (.integer top, { base with integers := rest })
  | .string =>
    match base.strings with
    | [] => none
    | top :: rest => some (.string top, { base with strings := rest })
  | .long =>
    match base.longs with
    | [] => none
    | top :: rest => some (.long top, { base with longs := rest })

/-- Take values off some stacks, the last first; the values come in the order of the stacks. -/
def popAll (base : Stacks) : List StackType → Option (List Value × Stacks)
  | [] => some ([], base)
  | kind :: rest =>
    (base.popAll rest).bind fun (values, above) =>
      (above.pop kind).map fun (value, below) => (value :: values, below)

@[simp] theorem pushAll_nil (base : Stacks) : base.pushAll [] = base := rfl

@[simp] theorem pushAll_cons (base : Stacks) (value : Value) (rest : List Value) :
    base.pushAll (value :: rest) = (base.push value).pushAll rest := rfl

/-- Values that are pushed after others. -/
theorem pushAll_append (base : Stacks) (first second : List Value) :
    base.pushAll (first ++ second) = (base.pushAll first).pushAll second :=
  List.foldl_append

/-- A value that was pushed is on top of its stack. -/
@[simp] theorem pop_push (base : Stacks) (value : Value) :
    (base.push value).pop value.stack = some (value, base) := by
  cases value <;> rfl

/-- What was pushed is taken off again. -/
theorem popAll_pushAll (base : Stacks) (values : List Value) :
    (base.pushAll values).popAll (values.map Value.stack) = some (values, base) := by
  induction values generalizing base with
  | nil => rfl
  | cons value rest ih => simp [popAll, ih]

end Stacks

/-- A state of the machine. -/
structure MachineState (World : Type) where
  /-- What lies on the stacks. -/
  values : Stacks
  /-- What lies outside them. -/
  world : World

/-- The operator and the stack of an arithmetic operation. -/
def Opcode.arithmetic? : Opcode → Option (ArithmeticOp × StackType)
  | .add => some (.add, .integer)
  | .sub => some (.sub, .integer)
  | .multiply => some (.multiply, .integer)
  | .divide => some (.divide, .integer)
  | .modulo => some (.modulo, .integer)
  | .and => some (.and, .integer)
  | .or => some (.or, .integer)
  | .longAdd => some (.add, .long)
  | .longSub => some (.sub, .long)
  | .longMultiply => some (.multiply, .long)
  | .longDivide => some (.divide, .long)
  | .longModulo => some (.modulo, .long)
  | .longAnd => some (.and, .long)
  | .longOr => some (.or, .long)
  | _ => none

variable {World : Type}

namespace Engine

/-- Compute an operator on the values of a stack; 64-bit arithmetic is done for longs only. -/
def calculate (engine : Engine World) (op : ArithmeticOp) : StackType → List Value → Act World
  | .integer, [.integer left, .integer right] =>
    some do return [.integer (← engine.integerOp op left right)]
  | .long, [.long left, .long right] => some do return [.long (← engine.longOp op left right)]
  | _, _ => none

/-- Push the reference to a symbol. -/
def refer (engine : Engine World) (symbol : Symbol) : StateM World (List Value) := do
  return [.integer (← engine.reference symbol)]

end Engine

/-- Join strings into one, in order. -/
def joinTexts (World : Type) (parts : List Value) : Act World :=
  (parts.mapM Value.text?).map fun texts => pure [.string (String.join texts)]

namespace Instruction

/-- What an instruction without control flow does with its operands. -/
def act? (engine : Engine World) (instruction : Instruction) (args : List Value) : Act World :=
  match instruction.opcode.arithmetic? with
  | some (op, stack) => engine.calculate op stack args
  | none =>
    match instruction.opcode, instruction.operand, args with
    | .pushConstantInt, .int value, [] => some (pure [.integer value])
    | .pushConstantString, .string value, [] => some (pure [.string value])
    | .pushConstantLong, .long value, [] => some (pure [.long value])
    | .pushConstantSymbol, .symbol symbol, [] => some (engine.refer symbol)
    | .pushLocal, .symbol (.localVar symbol), [] => some (Subtype.val <$> engine.readLocal symbol)
    | .popLocal, .symbol (.localVar symbol), [value] =>
      some do engine.writeLocal symbol value; return []
    | .defineArray, .symbol (.localVar symbol), [.integer size] =>
      some do engine.defineArray symbol size; return []
    | .pushArrayInt, .symbol (.localVar symbol), [.integer index] =>
      some do return [.integer (← engine.readElement symbol index)]
    | .popArrayInt, .symbol (.localVar symbol), [.integer index, .integer value] =>
      some do engine.writeElement symbol index value; return []
    | .pushVar, .symbol (.gameVar symbol), [] =>
      some (Subtype.val <$> engine.readGame false symbol)
    | .pushVar2, .symbol (.gameVar symbol), [] =>
      some (Subtype.val <$> engine.readGame true symbol)
    | .popVar, .symbol (.gameVar symbol), [value] =>
      some do engine.writeGame false symbol value; return []
    | .popVar2, .symbol (.gameVar symbol), [value] =>
      some do engine.writeGame true symbol value; return []
    | .gosub, .symbol (.script symbol), args => some (Subtype.val <$> engine.gosub symbol args)
    | .command, .symbol (.command symbol), args =>
      some (Subtype.val <$> engine.command symbol args)
    | .joinString, .count _, parts => joinTexts World parts
    | .discard, .stack _, [_] => some (pure [])
    | .lineNumber, _, [] => some (pure [])
    | _, _, _ => none

/-- Run an instruction without control flow. Without operands that fit, or with control flow, there
is no next state. -/
def perform (engine : Engine World) (instruction : Instruction) (state : MachineState World) :
    Option (MachineState World) :=
  (instruction.effect? fun _ => none).bind fun effect =>
    (state.values.popAll effect.pops).bind fun (args, below) =>
      (instruction.act? engine args).map fun act =>
        ⟨below.pushAll (act state.world).1, (act state.world).2⟩

/-- An instruction finds its operands where they were pushed last. -/
theorem perform_pushAll {engine : Engine World} {instruction : Instruction} {effect : StackEffect}
    {args : List Value} {act : StateM World (List Value)}
    (heffect : (instruction.effect? fun _ => none) = some effect)
    (hargs : args.map Value.stack = effect.pops) (hact : instruction.act? engine args = some act)
    (base : Stacks) (world : World) :
    instruction.perform engine ⟨base.pushAll args, world⟩ =
      some ⟨base.pushAll (act world).1, (act world).2⟩ := by
  simp only [perform, heffect, Option.bind_some, ← hargs, Stacks.popAll_pushAll, hact,
    Option.map_some]

/-- An instruction that runs always continues with the next one. -/
theorem goesOn_of_perform {engine : Engine World} {instruction : Instruction}
    {state final : MachineState World} (h : instruction.perform engine state = some final) :
    instruction.opcode.goesOn = true := by
  obtain ⟨effect, -, h⟩ := Option.bind_eq_some_iff.mp h
  obtain ⟨⟨args, below⟩, -, h⟩ := Option.bind_eq_some_iff.mp h
  obtain ⟨act, hact, -⟩ := Option.map_eq_some_iff.mp h
  obtain ⟨opcode, operand, span⟩ := instruction
  cases opcode <;> first | rfl | cases hact

end Instruction

/-- Run instructions without control flow in order. -/
def performAll (engine : Engine World) (code : List Instruction) (state : MachineState World) :
    Option (MachineState World) :=
  code.foldlM (fun state instruction => instruction.perform engine state) state

section Runs

variable (engine : Engine World) (state : MachineState World)

@[simp] theorem performAll_nil : performAll engine [] state = some state := rfl

@[simp] theorem performAll_singleton (instruction : Instruction) :
    performAll engine [instruction] state = instruction.perform engine state := by
  simp [performAll]

/-- Instructions after instructions run from where the first end. -/
theorem performAll_append (first second : List Instruction) :
    performAll engine (first ++ second) state =
      (performAll engine first state).bind (performAll engine second) :=
  List.foldlM_append

/-- Instructions that run always continue with the next one. -/
theorem goesOn_of_performAll {engine : Engine World} {code : List Instruction}
    {state final : MachineState World} (h : performAll engine code state = some final) :
    ∀ instruction ∈ code, instruction.opcode.goesOn = true := by
  induction code generalizing state with
  | nil => simp
  | cons first rest ih =>
    rw [performAll, List.foldlM_cons] at h
    obtain ⟨middle, hfirst, hrest⟩ := Option.bind_eq_some_iff.mp h
    rw [List.forall_mem_cons]
    exact ⟨Instruction.goesOn_of_perform hfirst, ih hrest⟩

end Runs

end ScriptBackend

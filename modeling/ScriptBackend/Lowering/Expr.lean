import ScriptBackend.Lowering.Basic

/-!
# Lowering of expressions

A value expression leaves its value on the stack of its type. Operands, arguments and parts are
lowered from left to right. Arithmetic is accepted only as an operand of a calculation, reached
through parentheses and other arithmetic, and a condition is never a value. A node is checked for
the symbol it needs before anything of it is emitted, except that a call is checked after its
arguments.
-/

namespace ScriptBackend

/-- The push of a literal. A string bound to a symbol is a reference to it, and null is minus one on
the two integer stacks. -/
def Literal.push (value : Literal) (ty : Ty) (symbol : Option Symbol) (span : Span) :
    Except LoweringError Instruction :=
  match value with
  | .int value | .char value | .coord value => .ok ((Instruction.pushInt value).atSpan span)
  | .bool value => .ok ((Instruction.pushInt (if value then 1 else 0)).atSpan span)
  | .long value => .ok ((Instruction.pushLong value).atSpan span)
  | .string value =>
    match symbol with
    | some symbol => .ok ((Instruction.onSymbol .pushConstantSymbol symbol).atSpan span)
    | none => .ok ((Instruction.pushString value).atSpan span)
  | .null =>
    match ty.stackType? with
    | some .integer => .ok ((Instruction.pushInt (-1)).atSpan span)
    | some .long => .ok ((Instruction.pushLong (-1)).atSpan span)
    | some .string | none => .error ⟨.unsupportedType ty .nullLiteral, span⟩

/-- What a bare name does with its symbol: entries and constants are pushed, variables are read,
commands and scripts are invoked. -/
def Symbol.useOpcode : Symbol → Opcode
  | .config _ | .constant _ => .pushConstantSymbol
  | .command _ => .command
  | .script symbol => if symbol.trigger = .label then .jump else .gosub
  | .localVar _ => .pushLocal
  | .gameVar _ => .pushVar

/-- The instruction of a bare name. -/
def useOfName (name : String) (symbol : Option Symbol) (span : Span) :
    Except LoweringError Instruction :=
  match symbol with
  | some symbol => .ok ((Instruction.onSymbol symbol.useOpcode symbol).atSpan span)
  | none => .error ⟨.unresolved .identifier name, span⟩

/-- An operation on the local variable that a node is bound to. -/
def onLocal (opcode : Opcode) (name : String) (symbol : Option Symbol) (span : Span) :
    Except LoweringError Instruction :=
  match symbol with
  | some (.localVar symbol) => .ok ((Instruction.onSymbol opcode (.localVar symbol)).atSpan span)
  | _ => .error ⟨.unresolved .localVar name, span⟩

/-- An operation on the game variable that a node is bound to. -/
def onGame (opcode : Opcode) (name : String) (symbol : Option Symbol) (span : Span) :
    Except LoweringError Instruction :=
  match symbol with
  | some (.gameVar symbol) => .ok ((Instruction.onSymbol opcode (.gameVar symbol)).atSpan span)
  | _ => .error ⟨.unresolved .gameVar name, span⟩

/-- The instruction that passes control to the callee. The callee must be of the kind that the call
names: a command, a proc script or a label script. -/
def CallHead.invocation (head : CallHead) : Except LoweringError Instruction :=
  match head.kind with
  | .command =>
    match head.symbol with
    | some (.command symbol) =>
      .ok ((Instruction.onSymbol .command (.command symbol)).atSpan head.span)
    | _ => .error ⟨.unresolved .command head.name, head.span⟩
  | .proc =>
    match head.symbol with
    | some (.script symbol) =>
      if symbol.trigger = .proc then
        .ok ((Instruction.onSymbol .gosub (.script symbol)).atSpan head.span)
      else .error ⟨.unresolved .proc head.name, head.span⟩
    | _ => .error ⟨.unresolved .proc head.name, head.span⟩
  | .jump =>
    match head.symbol with
    | some (.script symbol) =>
      if symbol.trigger = .label then
        .ok ((Instruction.onSymbol .jump (.script symbol)).atSpan head.span)
      else .error ⟨.unresolved .label head.name, head.span⟩
    | _ => .error ⟨.unresolved .label head.name, head.span⟩

/-- The operation of an arithmetic node, chosen by the node's type. -/
def arithmeticCode (op : ArithmeticOp) (ty : Ty) (span : Span) : Except LoweringError Instruction :=
  match ty.stackType?.bind op.opcode? with
  | some opcode => .ok ({ opcode : Instruction }.atSpan span)
  | none => .error ⟨.unsupportedType ty .arithmetic, span⟩

/-- Where an expression stands. -/
inductive Place where
  /-- Where its value is used. -/
  | value
  /-- Inside a calculation, where arithmetic is accepted. -/
  | operand
  deriving DecidableEq, Repr

namespace Lower

/-- Pass control to the callee of a call whose arguments are already lowered. -/
def invoke (head : CallHead) : Lower Unit := emitResult head.invocation

/-- The handler that governs a call: that of the command it names, if it has one. -/
def handlerOf? (handlers : Handlers) (head : CallHead) : Option Handler :=
  match head.kind with
  | .command => handlers.find? head.name
  | .proc | .jump => none

/-- Lower a call whose arguments come with the steps that lower them. -/
def callWith (context : Context) (head : CallHead) (args : List (Expr × Lower Unit)) :
    Lower Unit :=
  match handlerOf? context.handlers head with
  | some handler => handler.lowerCall context.script head args
  | none => do
    inOrder (args.map Prod.snd)
    invoke head

mutual

/-- Lower a value expression. -/
def expr (context : Context) (place : Place) : Expr → Lower Unit
  | .literal value ty symbol span => emitResult (value.push ty symbol span)
  | .identifier name _ symbol span => emitResult (useOfName name symbol span)
  | .localVar name _ symbol span => emitResult (onLocal .pushLocal name symbol span)
  | .element name index _ symbol span => do
    let push ← ofExcept (onLocal .pushArrayInt name symbol span)
    expr context .value index
    emit push
  | .gameVar name secondary _ symbol span =>
    emitResult (onGame (if secondary then .pushVar2 else .pushVar) name symbol span)
  | .constant _ _ value _ => expr context .value value
  | .openConstant name _ span => fail (.unresolved .constant name) span
  | .condition _ _ _ span => fail .conditionAsValue span
  | .arithmetic left op right ty span =>
    match place with
    | .value => fail .arithmeticAsValue span
    | .operand => do
      expr context .operand left
      expr context .operand right
      emitResult (arithmeticCode op ty span)
  | .calculation inner _ _ => expr context .operand inner
  | .paren inner _ => expr context place inner
  | .call head args => callWith context head (withSteps context args)
  | .joined parts span => do
    inOrder ((withSteps context parts).map Prod.snd)
    emit { opcode := .joinString, operand := .count parts.length, span := some span }

/-- Value expressions with the steps that lower them. -/
def withSteps (context : Context) : List Expr → List (Expr × Lower Unit)
  | [] => []
  | first :: rest => (first, expr context .value first) :: withSteps context rest

end

/-- Lower value expressions from left to right. -/
def exprs (context : Context) (es : List Expr) : Lower Unit :=
  inOrder ((withSteps context es).map Prod.snd)

theorem exprs_nil (context : Context) : exprs context [] = pure () := by
  rw [exprs, withSteps, List.map_nil, inOrder]

/-- The first expression is lowered before the others. -/
theorem exprs_cons (context : Context) (first : Expr) (rest : List Expr) :
    exprs context (first :: rest) = (do
      expr context .value first
      exprs context rest) := by
  rw [exprs, withSteps, List.map_cons, inOrder]
  rfl

/-- Expressions come with their steps in order. -/
theorem map_fst_withSteps (context : Context) (es : List Expr) :
    (withSteps context es).map Prod.fst = es := by
  induction es with
  | nil => rw [withSteps, List.map_nil]
  | cons first rest ih => rw [withSteps, List.map_cons, ih]

/-- Lower a call with its arguments. -/
def call (context : Context) (head : CallHead) (args : List Expr) : Lower Unit :=
  callWith context head (withSteps context args)

end Lower

end ScriptBackend

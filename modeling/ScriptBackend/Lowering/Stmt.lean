import ScriptBackend.Lowering.CaseKey
import ScriptBackend.Lowering.Condition
import ScriptBackend.Tree.Stmt

/-!
# Lowering of statements

Each statement but a block first marks its line. Conditionals, loops and switches take their labels
before they lower their parts and bind them in layout order; every arm, loop body and case ends in
a branch. A script body is followed by a return of default values, so control never runs off the
last block.
-/

namespace ScriptBackend

/-- The push of the value that a variable or return of a type has by default: zero for `int`, minus
one for every other integer and for longs, and the empty string. -/
def Ty.defaultPush (ty : Ty) (span : Span) : Except LoweringError Instruction :=
  match ty with
  | .scalar .int => .ok ((Instruction.pushInt 0).atSpan span)
  | .scalar element =>
    match element.stackType with
    | .integer => .ok ((Instruction.pushInt (-1)).atSpan span)
    | .string => .ok ((Instruction.pushString "").atSpan span)
    | .long => .ok ((Instruction.pushLong (-1)).atSpan span)
  | .array _ | .unit => .error ⟨.unsupportedType ty .defaultValue, span⟩

/-- The local variable that a declaration is bound to. -/
def declaredLocal (name : String) (symbol : Option Symbol) (span : Span) :
    Except LoweringError LocalSymbol :=
  match symbol with
  | some (.localVar symbol) => .ok symbol
  | _ => .error ⟨.unresolved .localVar name, span⟩

/-- The store into an assignment target. -/
def Expr.store : Expr → Except LoweringError Instruction
  | .localVar name _ symbol span => onLocal .popLocal name symbol span
  | .element name _ _ symbol span => onLocal .popArrayInt name symbol span
  | .gameVar name secondary _ symbol span =>
    onGame (if secondary then .popVar2 else .popVar) name symbol span
  | other => .error ⟨.notAssignable other.kind, other.span⟩

/-- The types of the values that an expression of a type leaves: none for unit, else one. -/
def Ty.asValues : Ty → List Ty
  | .unit => []
  | other => [other]

/-- The types of the values that an expression leaves on the stacks. -/
def Expr.producedTypes : Expr → List Ty
  | .call head _ =>
    match head.kind with
    | .jump => []
    | .command | .proc =>
      match head.symbol with
      | some (.script symbol) => symbol.returns
      | some (.command symbol) => symbol.returns
      | _ => head.ty.asValues
  | .paren inner _ => inner.producedTypes
  | other => other.ty.asValues

/-- The instruction that drops a value of a type. -/
def Ty.discard (ty : Ty) (span : Span) : Except LoweringError Instruction :=
  match ty.stackType? with
  | some stack => .ok { opcode := .discard, operand := .stack stack, span := some span }
  | none => .error ⟨.unsupportedType ty .discardedValue, span⟩

/-- The unconditional branch that a statement ends a part with. -/
def branchAlways (label : Label) (span : Span) : Instruction :=
  (Instruction.branchTo .branch label).atSpan span

namespace Lower

/-- Emit the instructions that computations give, in order, up to the first error. -/
def emitResults : List (Except LoweringError Instruction) → Lower Unit
  | [] => pure ()
  | first :: rest => do
    emitResult first
    emitResults rest

/-- Lower an assignment. The index of an element in first place is lowered first, then all values,
and the targets are stored from the last to the first, so that each gets the value that is on top
when its turn comes. An element in a later place is refused before anything is emitted. -/
def assign (context : Context) (targets values : List Expr) : Lower Unit :=
  match targets with
  | [] => pure ()
  | first :: rest =>
    match rest.find? Expr.isElement with
    | some element => fail .elementNotFirst element.span
    | none => do
      match first with
      | .element _ index _ _ _ => expr context .value index
      | _ => pure ()
      exprs context values
      emitResults (targets.reverse.map Expr.store)

/-- Lower the declaration of a local variable, which gets its first value or the default of its
type. The slot is taken after the value was lowered. -/
def declare (context : Context) (name : String) (ty : Ty) (symbol : Option Symbol)
    (initial : Option Expr) (span : Span) : Lower Unit := do
  let declared ← ofExcept (declaredLocal name symbol span)
  match initial with
  | some value => expr context .value value
  | none => emitResult (ty.defaultPush span)
  addLocal declared
  emit ((Instruction.onSymbol .popLocal (.localVar declared)).atSpan span)

/-- Lower the declaration of a local array. -/
def declareArray (context : Context) (name : String) (ty : Ty) (symbol : Option Symbol)
    (size : Expr) (span : Span) : Lower Unit := do
  let declared ← ofExcept (declaredLocal name symbol span)
  if ty.isArray then
    expr context .value size
    addLocal declared
    emit ((Instruction.onSymbol .defineArray (.localVar declared)).atSpan span)
  else
    fail (.unsupportedType ty .arrayDeclaration) span

/-- Lower an expression for its effects and drop its values, the last first. -/
def evaluate (context : Context) (value : Expr) (span : Span) : Lower Unit := do
  expr context .value value
  emitResults (value.producedTypes.reverse.map fun ty => ty.discard span)

/-- Lower a return of values. -/
def leave (context : Context) (values : List Expr) (span : Span) : Lower Unit := do
  exprs context values
  emit ({ opcode := .leave : Instruction }.atSpan span)

/-- Take the label of a case: the default case has its label already. -/
def caseLabel (fallback : Option Label) (isDefault : Bool) : Lower Label :=
  match fallback, isDefault with
  | some label, true => pure label
  | _, _ => takeLabel "switch_case"

mutual

/-- Lower a statement. -/
def stmt (context : Context) : Stmt → Lower Unit
  | .block body _ => stmts context body
  | .ifThen test onTrue span => do
    markLine span
    let whenTrue ← takeLabel "if_true"
    let done ← takeLabel "if_end"
    condition context test whenTrue done
    bindLabel whenTrue
    stmt context onTrue
    emit (branchAlways done span)
    bindLabel done
  | .ifElse test onTrue onFalse span => do
    markLine span
    let whenTrue ← takeLabel "if_true"
    let whenFalse ← takeLabel "if_else"
    let done ← takeLabel "if_end"
    condition context test whenTrue whenFalse
    bindLabel whenTrue
    stmt context onTrue
    emit (branchAlways done span)
    bindLabel whenFalse
    stmt context onFalse
    emit (branchAlways done span)
    bindLabel done
  | .whileLoop test body span => do
    markLine span
    let start ← takeLabel "while_start"
    let inside ← takeLabel "while_body"
    let done ← takeLabel "while_end"
    bindLabel start
    condition context test inside done
    bindLabel inside
    stmt context body
    emit (branchAlways start span)
    bindLabel done
  | .switch _ subject cases span => do
    markLine span
    let table ← takeTable
    let done ← takeLabel "switch_end"
    let fallback ← if cases.any Case.isDefault then some <$> takeLabel "switch_default_case"
      else pure none
    expr context .value subject
    emit { opcode := .switch, operand := .table table, span := some span }
    if (cases.head?.map Case.isDefault).getD false then pure ()
    else emit (branchAlways (fallback.getD done) span)
    switchCases context table done fallback cases
    bindLabel done
  | .leave values span => do
    markLine span
    leave context values span
  | .assign targets values span => do
    markLine span
    assign context targets values
  | .declare name ty symbol initial span => do
    markLine span
    declare context name ty symbol initial span
  | .declareArray name ty symbol size span => do
    markLine span
    declareArray context name ty symbol size span
  | .evaluate value span => do
    markLine span
    evaluate context value span
  | .empty span => markLine span

/-- Lower statements in order. -/
def stmts (context : Context) : List Stmt → Lower Unit
  | [] => pure ()
  | first :: rest => do
    stmt context first
    stmts context rest

/-- Lower the cases of a switch in order; each ends in a branch past the last. -/
def switchCases (context : Context) (table : Nat) (done : Label) (fallback : Option Label) :
    List Case → Lower Unit
  | [] => pure ()
  | .mk keys isDefault body span :: rest => do
    let label ← caseLabel fallback isDefault
    let constants ← ofExcept (keys.mapM fun key => key.caseKey context.scope)
    addCase table ⟨constants, label⟩
    bindLabel label
    stmts context body
    emit (branchAlways done span)
    switchCases context table done fallback rest

end

/-- Lower the return of default values that follows every script body. -/
def defaultLeave (context : Context) (span : Span) : Lower Unit := do
  emitResults (context.script.returns.map fun ty => ty.defaultPush span)
  emit ({ opcode := .leave : Instruction }.atSpan span)

/-- Lower a script body. -/
def body (context : Context) (statements : List Stmt) (span : Span) : Lower Unit := do
  stmts context statements
  defaultLeave context span

end Lower

end ScriptBackend

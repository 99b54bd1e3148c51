import ScriptBackend.Proofs.Machine.Engine
import ScriptBackend.Proofs.Stacks.Typing

/-!
# What value expressions mean

A value expression stands for values: it is evaluated in a world, operands, arguments and parts from
left to right, and leaves the world as the engine changed it on the way. No stack occurs here.
Arithmetic is done on the values of the type of its node, and a joined string is the concatenation
of its parts. A jump stands for nothing, and neither does an expression whose parts do not fit.

The stacks that the values belong to can be told from the tree alone. Only the symbols and the
values of literals count for this, and the types of arithmetic and of null; what else the tree says
about types may be anything. So every well-typed expression has its stacks.
-/

namespace ScriptBackend

variable {World : Type}

/-- The value of a literal. A string bound to a symbol is a reference to it, and null is minus one
on the two integer stacks. -/
def Literal.meaning? (engine : Engine World) (value : Literal) (ty : Ty)
    (symbol : Option Symbol) : Act World :=
  match value with
  | .int value | .char value | .coord value => some (pure [.integer value])
  | .bool value => some (pure [.integer (if value then 1 else 0)])
  | .long value => some (pure [.long value])
  | .string value =>
    match symbol with
    | some symbol => some (engine.refer symbol)
    | none => some (pure [.string value])
  | .null =>
    match ty.stackType? with
    | some .integer => some (pure [.integer (-1)])
    | some .long => some (pure [.long (-1)])
    | some .string | none => none

/-- What a bare name stands for: a reference to an entry or constant, the value of a variable, or
what a command or proc returns without arguments. -/
def Symbol.meaning? (engine : Engine World) : Symbol → Act World
  | .config symbol => some (engine.refer (.config symbol))
  | .constant symbol => some (engine.refer (.constant symbol))
  | .localVar symbol => some (Subtype.val <$> engine.readLocal symbol)
  | .gameVar symbol => some (Subtype.val <$> engine.readGame false symbol)
  | .command symbol => some (Subtype.val <$> engine.command symbol [])
  | .script symbol =>
    if symbol.trigger = .label then none else some (Subtype.val <$> engine.gosub symbol [])

/-- The element at an index of the local array that a node is bound to. -/
def elementAt? (engine : Engine World) : Option Symbol → List Value → Act World
  | some (.localVar symbol), [.integer index] =>
    some do return [.integer (← engine.readElement symbol index)]
  | _, _ => none

/-- What a call stands for: the values that the callee returns. The callee alone is told, not
whether the call is marked as secondary. -/
def CallHead.meaning? (engine : Engine World) (head : CallHead) (args : List Value) : Act World :=
  match head.kind, head.symbol with
  | .command, some (.command symbol) => some (Subtype.val <$> engine.command symbol args)
  | .proc, some (.script symbol) => some (Subtype.val <$> engine.gosub symbol args)
  | _, _ => none

mutual

/-- Evaluate a value expression. -/
def Expr.eval (engine : Engine World) : Expr → World → Option (List Value × World)
  | .literal value ty symbol _, world => (value.meaning? engine ty symbol).map (· world)
  | .identifier _ _ symbol _, world => (symbol.bind (Symbol.meaning? engine)).map (· world)
  | .localVar _ _ symbol _, world =>
    match symbol with
    | some (.localVar symbol) => some ((Subtype.val <$> engine.readLocal symbol) world)
    | _ => none
  | .element _ index _ symbol _, world => do
    let (indices, world) ← index.eval engine world
    let act ← elementAt? engine symbol indices
    return act world
  | .gameVar _ secondary _ symbol _, world =>
    match symbol with
    | some (.gameVar symbol) => some ((Subtype.val <$> engine.readGame secondary symbol) world)
    | _ => none
  | .constant _ _ value _, world => value.eval engine world
  | .openConstant .., _ | .condition .., _ => none
  | .arithmetic left op right ty _, world => do
    let (lefts, world) ← left.eval engine world
    let (rights, world) ← right.eval engine world
    let stack ← ty.stackType?
    let act ← engine.calculate op stack (lefts ++ rights)
    return act world
  | .calculation inner _ _, world => inner.eval engine world
  | .paren inner _, world => inner.eval engine world
  | .call head args, world => do
    let (values, world) ← Expr.evalAll engine args world
    let act ← head.meaning? engine values
    return act world
  | .joined parts _, world => do
    let (values, world) ← Expr.evalAll engine parts world
    let act ← joinTexts World values
    return act world

/-- Evaluate value expressions from left to right. -/
def Expr.evalAll (engine : Engine World) : List Expr → World → Option (List Value × World)
  | [], world => some ([], world)
  | first :: rest, world => do
    let (values, world) ← first.eval engine world
    let (others, world) ← Expr.evalAll engine rest world
    return (values ++ others, world)

end

/-- The stacks of the values that a bare name leaves; a constant is referred to by an integer, as a
configuration entry is. -/
def Symbol.leaves? : Symbol → Option (List StackType)
  | .constant _ => some [.integer]
  | other => other.bareValues?

mutual

/-- The stacks of the values that an expression leaves, if its parts leave what it takes. -/
def Expr.leaves? : Expr → Option (List StackType)
  | .literal value ty symbol _ => (value.stack? ty symbol).map fun stack => [stack]
  | .identifier _ _ symbol _ => symbol.bind Symbol.leaves?
  | .localVar _ _ symbol _ =>
    (symbol.bind Symbol.local?).bind fun symbol => symbol.ty.stackType?.map fun stack => [stack]
  | .element _ index _ symbol _ =>
    (symbol.bind Symbol.local?).bind fun symbol =>
      if symbol.ty.elementType.stackType? = some .integer ∧ index.leaves? = some [.integer] then
        some [.integer]
      else none
  | .gameVar _ _ _ symbol _ =>
    (symbol.bind Symbol.game?).bind fun symbol => symbol.ty.stackType?.map fun stack => [stack]
  | .constant _ _ value _ => value.leaves?
  | .openConstant .. | .condition .. => none
  | .arithmetic left _ right ty _ =>
    ty.stackType?.bind fun stack =>
      if left.leaves? = some [stack] ∧ right.leaves? = some [stack] then some [stack] else none
  | .calculation inner _ _ => inner.leaves?
  | .paren inner _ => inner.leaves?
  | .call head args =>
    head.signature?.bind fun (parameters, returns) =>
      if Expr.leaveAll? args = some (stackTypesOf parameters) then some (stackTypesOf returns)
      else none
  | .joined parts _ =>
    if Expr.leaveAll? parts = some (List.replicate parts.length .string) then some [.string]
    else none

/-- The stacks of the values that expressions leave, one after another. -/
def Expr.leaveAll? : List Expr → Option (List StackType)
  | [] => some []
  | first :: rest =>
    first.leaves?.bind fun values => (Expr.leaveAll? rest).map fun others => values ++ others

end

mutual

/-- A well-typed value expression leaves values on the stacks of its typing. -/
theorem Expr.Yields.leaves?_eq : ∀ {e : Expr} {values : List StackType}, e.Yields values →
    e.leaves? = some values
  | _, _, .literal hvalue _ => by simp [Expr.leaves?, hvalue]
  | _, _, @Expr.Yields.identifier _ _ symbol _ hsymbol => by
    cases symbol with
    | constant symbol => cases hsymbol
    | _ => exact hsymbol
  | _, _, .localVar hsymbol _ => by simp [Expr.leaves?, Symbol.local?, hsymbol]
  | _, _, .element hsymbol _ hindex => by
    simp [Expr.leaves?, Symbol.local?, hsymbol, hindex.leaves?_eq]
  | _, _, .gameVar hsymbol _ => by simp [Expr.leaves?, Symbol.game?, hsymbol]
  | _, _, .constant hvalue => by rw [Expr.leaves?, hvalue.leaves?_eq]
  | _, _, .arithmetic hty hleft hright => by
    simp [Expr.leaves?, hty, hleft.leaves?_eq, hright.leaves?_eq]
  | _, _, .calculation hinner => by rw [Expr.leaves?, hinner.leaves?_eq]
  | _, _, .paren hinner => by rw [Expr.leaves?, hinner.leaves?_eq]
  | _, _, .call hcallee hargs => by simp [Expr.leaves?, hcallee, hargs.leaveAll?_eq]
  | _, _, .joined hparts => by simp [Expr.leaves?, hparts.leaveAll?_eq]

/-- Well-typed value expressions leave values on the stacks of their typing. -/
theorem Expr.YieldAll.leaveAll?_eq : ∀ {es : List Expr} {values : List StackType},
    Expr.YieldAll es values → Expr.leaveAll? es = some values
  | _, _, .nil => by rw [Expr.leaveAll?]
  | _, _, .cons hfirst hrest => by
    rw [Expr.leaveAll?, hfirst.leaves?_eq, hrest.leaveAll?_eq]
    rfl

end

end ScriptBackend

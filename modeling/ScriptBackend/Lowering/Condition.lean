import ScriptBackend.Lowering.Expr

/-!
# Lowering of conditions

A condition becomes branches: its code leaves for one label when the condition holds and for another
when it does not, and never runs off its end. The second operand of a connective has a block of its
own, reached only when the first operand leaves the outcome open.
-/

namespace ScriptBackend

/-- The branch that a comparison takes when it holds, chosen by the type of its left operand. -/
def comparisonBranch (comparison : Comparison) (ty : Ty) (onTrue : Label) (span : Span) :
    Except LoweringError Instruction :=
  match ty.stackType?.bind comparison.branch? with
  | some opcode => .ok ((Instruction.branchTo opcode onTrue).atSpan span)
  | none => .error ⟨.unsupportedType ty .comparison, span⟩

namespace Lower

/-- Lower a condition into branches to `onTrue` and `onFalse`. -/
def condition (context : Context) : Expr → Label → Label → Lower Unit
  | .condition left (.join .and) right _, onTrue, onFalse => do
    let next ← takeLabel "condition_and"
    condition context left next onFalse
    bindLabel next
    condition context right onTrue onFalse
  | .condition left (.join .or) right _, onTrue, onFalse => do
    let next ← takeLabel "condition_or"
    condition context left onTrue next
    bindLabel next
    condition context right onTrue onFalse
  | .condition left (.compare comparison) right span, onTrue, onFalse => do
    expr context .value left
    expr context .value right
    emitResult (comparisonBranch comparison left.ty onTrue span)
    emit ((Instruction.branchTo .branch onFalse).atSpan span)
  | .paren inner _, onTrue, onFalse => condition context inner onTrue onFalse
  | other, _, _ => fail (.invalidCondition other.kind) other.span

end Lower

end ScriptBackend

import ScriptBackend.Code.Instruction
import ScriptBackend.Lowering.Error
import ScriptBackend.Symbol.Scope

/-!
# Keys of switch cases

A key is folded to a constant: a literal to its value, a name to its symbol, and a named constant to
whatever its value folds to. A name that the tree left open is looked up in the scope. Nothing else
is a key.
-/

namespace ScriptBackend

/-- The constant of a literal; null is minus one whatever its type. -/
def Literal.constant (value : Literal) (symbol : Option Symbol) : Constant :=
  match value with
  | .int value | .char value | .coord value => .int value
  | .bool value => .int (if value then 1 else 0)
  | .long value => .long value
  | .string value =>
    match symbol with
    | some symbol => .symbol symbol
    | none => .string value
  | .null => .int (-1)

/-- The constant that a key folds to. -/
def Expr.caseKey (scope : Scope) : Expr → Except LoweringError Constant
  | .constant _ _ value _ => value.caseKey scope
  | .identifier name _ symbol span =>
    match symbol.or (scope.find? name) with
    | some symbol => .ok (.symbol symbol)
    | none => .error ⟨.openCaseKey .identifier, span⟩
  | .literal value _ symbol _ => .ok (value.constant symbol)
  | other => .error ⟨.openCaseKey other.kind, other.span⟩

end ScriptBackend

import ScriptBackend.Diagnostic
import ScriptBackend.Tree.Expr

/-!
# Lowering errors

A script is given up at the first node that cannot be lowered. Only a key of a switch that is no
constant is the fault of the script; every other cause means that the tree was not resolved and
typed as it should have been, and its diagnostic says so.
-/

namespace ScriptBackend

/-- The symbol that a node needs. -/
inductive Role where
  | identifier
  | constant
  | localVar
  | gameVar
  | command
  | proc
  | label
  deriving DecidableEq, Repr

/-- The name of a role. -/
def Role.name : Role → String
  | .identifier => "identifier"
  | .constant => "constant"
  | .localVar => "local variable"
  | .gameVar => "game variable"
  | .command => "command"
  | .proc => "proc"
  | .label => "label"

/-- The use that a type does not support. -/
inductive TypeUse where
  | nullLiteral
  | comparison
  | arithmetic
  | defaultValue
  | arrayDeclaration
  | discardedValue
  | argumentDescription
  deriving DecidableEq, Repr

/-- The name of a use of a type. -/
def TypeUse.name : TypeUse → String
  | .nullLiteral => "null literal"
  | .comparison => "comparison"
  | .arithmetic => "arithmetic"
  | .defaultValue => "default value"
  | .arrayDeclaration => "array declaration"
  | .discardedValue => "discarded value"
  | .argumentDescription => "argument type string"

/-- Why a node cannot be lowered. -/
inductive LoweringCause where
  /-- The node has no symbol, or one of the wrong kind. -/
  | unresolved (role : Role) (name : String)
  /-- The type does not support the use it is put to. -/
  | unsupportedType (ty : Ty) (use : TypeUse)
  /-- The node in the place of a condition is none. -/
  | invalidCondition (kind : ExprKind)
  /-- A condition in the place of a value. -/
  | conditionAsValue
  /-- Arithmetic outside a calculation. -/
  | arithmeticAsValue
  /-- The target of an assignment is no variable. -/
  | notAssignable (kind : ExprKind)
  /-- An array element is a target after the first. -/
  | elementNotFirst
  /-- A key of a switch is no constant. -/
  | openCaseKey (kind : ExprKind)
  deriving DecidableEq, Repr

/-- The message of a cause. -/
def LoweringCause.message : LoweringCause → String
  | .unresolved role name => "unresolved " ++ role.name ++ " '" ++ name ++ "'"
  | .unsupportedType ty use => "unsupported type '" ++ ty.name ++ "' in " ++ use.name
  | .invalidCondition kind => "invalid condition: " ++ kind.name
  | .conditionAsValue => "unexpected " ++ ExprKind.condition.name ++ " in value position"
  | .arithmeticAsValue =>
    "unexpected " ++ ExprKind.arithmetic.name ++ " in value position outside calc"
  | .notAssignable kind => kind.name ++ " cannot be assigned to"
  | .elementNotFirst => "array element must be the first assignment target"
  | .openCaseKey kind => "switch case key " ++ kind.name ++ " is not a constant value"

/-- A node that cannot be lowered. -/
structure LoweringError where
  /-- Why it cannot. -/
  cause : LoweringCause
  /-- Where it stands. -/
  span : Span
  deriving DecidableEq, Repr

namespace LoweringError

/-- The message of an error. -/
def message (error : LoweringError) : String := error.cause.message

/-- Whether the tree rather than the script is at fault. -/
def isInternal (error : LoweringError) : Bool :=
  match error.cause with
  | .openCaseKey _ => false
  | _ => true

/-- The diagnostic that reports an error. -/
def diagnostic (error : LoweringError) : Diagnostic :=
  .error error.span <|
    if error.isInternal then "internal compiler error: " ++ error.message else error.message

/-- An error is reported as an error. -/
@[simp] theorem isError_diagnostic (error : LoweringError) : error.diagnostic.isError = true := rfl

end LoweringError

end ScriptBackend

import ScriptBackend.Span
import ScriptBackend.Symbol.Basic
import ScriptBackend.Tree.Operator

/-!
# Expressions

An expression of a resolved tree carries the types and symbols that name resolution and type
checking gave it. A missing symbol is a name that resolution left open. Array elements and plain
local variables are separate forms, as are constants with and without a known value.
-/

namespace ScriptBackend

/-- The value of a literal. -/
inductive Literal where
  | int (value : Int32)
  | bool (value : Bool)
  /-- A character, as its code. -/
  | char (code : Int32)
  /-- A packed coordinate. -/
  | coord (packed : Int32)
  | long (value : Int64)
  | string (value : String)
  /-- The absent value of a type. -/
  | null
  deriving DecidableEq, Repr

/-- What a call says apart from its arguments. -/
structure CallHead where
  /-- How control is passed. -/
  kind : CallKind
  /-- The name that is called. -/
  name : String
  /-- Whether a command runs against the secondary pointers. -/
  secondary : Bool := false
  /-- The type of the single value returned, unit for none or several. -/
  ty : Ty := .unit
  /-- The callee. -/
  symbol : Option Symbol := none
  /-- Where the call stands. -/
  span : Span
  deriving DecidableEq, Repr

/-- An expression. -/
inductive Expr where
  /-- A literal; a string that names a configuration entry is bound to it. -/
  | literal (value : Literal) (ty : Ty) (symbol : Option Symbol) (span : Span)
  /-- A bare name. -/
  | identifier (name : String) (ty : Ty) (symbol : Option Symbol) (span : Span)
  /-- A local variable. -/
  | localVar (name : String) (ty : Ty) (symbol : Option Symbol) (span : Span)
  /-- An element of a local array. -/
  | element (name : String) (index : Expr) (ty : Ty) (symbol : Option Symbol) (span : Span)
  /-- A game variable, read through the secondary pointers if so marked. -/
  | gameVar (name : String) (secondary : Bool) (ty : Ty) (symbol : Option Symbol) (span : Span)
  /-- A named constant with its value. -/
  | constant (name : String) (ty : Ty) (value : Expr) (span : Span)
  /-- A named constant whose value is not known. -/
  | openConstant (name : String) (ty : Ty) (span : Span)
  /-- A condition. -/
  | condition (left : Expr) (op : ConditionOp) (right : Expr) (span : Span)
  /-- Arithmetic inside a calculation. -/
  | arithmetic (left : Expr) (op : ArithmeticOp) (right : Expr) (ty : Ty) (span : Span)
  /-- A calculation. -/
  | calculation (inner : Expr) (ty : Ty) (span : Span)
  /-- An expression in parentheses. -/
  | paren (inner : Expr) (span : Span)
  /-- A call with its arguments. -/
  | call (head : CallHead) (args : List Expr)
  /-- A string joined from parts. -/
  | joined (parts : List Expr) (span : Span)

/-- The form of an expression, as messages name it. -/
inductive ExprKind where
  | literal
  | identifier
  | localVar
  | gameVar
  | constant
  | condition
  | arithmetic
  | calculation
  | paren
  | call
  | joined
  deriving DecidableEq, Repr

/-- The name of a form of expression. -/
def ExprKind.name : ExprKind → String
  | .literal => "literal"
  | .identifier => "identifier"
  | .localVar => "local variable"
  | .gameVar => "game variable"
  | .constant => "constant"
  | .condition => "condition"
  | .arithmetic => "arithmetic"
  | .calculation => "calc"
  | .paren => "parenthesis"
  | .call => "call"
  | .joined => "joined string"

namespace Expr

/-- The form of an expression. -/
def kind : Expr → ExprKind
  | .literal .. => .literal
  | .identifier .. => .identifier
  | .localVar .. | .element .. => .localVar
  | .gameVar .. => .gameVar
  | .constant .. | .openConstant .. => .constant
  | .condition .. => .condition
  | .arithmetic .. => .arithmetic
  | .calculation .. => .calculation
  | .paren .. => .paren
  | .call .. => .call
  | .joined .. => .joined

/-- Where an expression stands. -/
def span : Expr → Span
  | .literal _ _ _ span => span
  | .identifier _ _ _ span => span
  | .localVar _ _ _ span => span
  | .element _ _ _ _ span => span
  | .gameVar _ _ _ _ span => span
  | .constant _ _ _ span => span
  | .openConstant _ _ span => span
  | .condition _ _ _ span => span
  | .arithmetic _ _ _ _ span => span
  | .calculation _ _ span => span
  | .paren _ span => span
  | .call head _ => head.span
  | .joined _ span => span

/-- The type of an expression: a condition is boolean, a joined string a string, parentheses add
nothing, and every other form carries its type. -/
def ty : Expr → Ty
  | .literal _ ty _ _ => ty
  | .identifier _ ty _ _ => ty
  | .localVar _ ty _ _ => ty
  | .element _ _ ty _ _ => ty
  | .gameVar _ _ ty _ _ => ty
  | .constant _ ty _ _ => ty
  | .openConstant _ ty _ => ty
  | .condition .. => .boolean
  | .arithmetic _ _ _ ty _ => ty
  | .calculation _ ty _ => ty
  | .paren inner _ => inner.ty
  | .call head _ => head.ty
  | .joined .. => .string

/-- Whether an expression is an array element. -/
def isElement : Expr → Bool
  | .element .. => true
  | _ => false

/-- The expression moved to another position. -/
def withSpan (span : Span) : Expr → Expr
  | .literal value ty symbol _ => .literal value ty symbol span
  | .identifier name ty symbol _ => .identifier name ty symbol span
  | .localVar name ty symbol _ => .localVar name ty symbol span
  | .element name index ty symbol _ => .element name index ty symbol span
  | .gameVar name secondary ty symbol _ => .gameVar name secondary ty symbol span
  | .constant name ty value _ => .constant name ty value span
  | .openConstant name ty _ => .openConstant name ty span
  | .condition left op right _ => .condition left op right span
  | .arithmetic left op right ty _ => .arithmetic left op right ty span
  | .calculation inner ty _ => .calculation inner ty span
  | .paren inner _ => .paren inner span
  | .call head args => .call { head with span } args
  | .joined parts _ => .joined parts span

/-- The expression with another type; a form that carries no type is kept. -/
def withTy (ty : Ty) : Expr → Expr
  | .literal value _ symbol span => .literal value ty symbol span
  | .identifier name _ symbol span => .identifier name ty symbol span
  | .localVar name _ symbol span => .localVar name ty symbol span
  | .element name index _ symbol span => .element name index ty symbol span
  | .gameVar name secondary _ symbol span => .gameVar name secondary ty symbol span
  | .constant name _ value span => .constant name ty value span
  | .openConstant name _ span => .openConstant name ty span
  | .arithmetic left op right _ span => .arithmetic left op right ty span
  | .calculation inner _ span => .calculation inner ty span
  | .call head args => .call { head with ty } args
  | other => other

/-- The expression bound to another symbol or to none; a form that is bound to none is kept. -/
def withSymbol (symbol : Option Symbol) : Expr → Expr
  | .literal value ty _ span => .literal value ty symbol span
  | .identifier name ty _ span => .identifier name ty symbol span
  | .localVar name ty _ span => .localVar name ty symbol span
  | .element name index ty _ span => .element name index ty symbol span
  | .gameVar name secondary ty _ span => .gameVar name secondary ty symbol span
  | .call head args => .call { head with symbol } args
  | other => other

/-- The expression under another name; a form without a name is kept. -/
def withName (name : String) : Expr → Expr
  | .identifier _ ty symbol span => .identifier name ty symbol span
  | .localVar _ ty symbol span => .localVar name ty symbol span
  | .element _ index ty symbol span => .element name index ty symbol span
  | .gameVar _ secondary ty symbol span => .gameVar name secondary ty symbol span
  | .constant _ ty value span => .constant name ty value span
  | .openConstant _ ty span => .openConstant name ty span
  | .call head args => .call { head with name } args
  | other => other

/-- Moving an expression changes its position and nothing of its form. -/
@[simp] theorem span_withSpan (expr : Expr) (span : Span) : (expr.withSpan span).span = span := by
  cases expr <;> rfl

/-- Moving an expression keeps its type. -/
@[simp] theorem ty_withSpan (expr : Expr) (span : Span) : (expr.withSpan span).ty = expr.ty := by
  cases expr <;> rfl

end Expr

end ScriptBackend

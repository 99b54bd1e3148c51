import ScriptBackend.Tree.Stmt

/-!
# Resolved nodes

Nodes as name resolution leaves them. Each constructor here takes what is written and the symbol it
resolved to, and fills in name, type and symbol: a variable has its own type, an element the
element type of its array, arithmetic the type of its left operand, and a call the type of its
single returned value or unit.
-/

namespace ScriptBackend

/-- The type of a call to something with these returns: the type of a single value, else unit. -/
def Ty.ofReturns : List Ty → Ty
  | [single] => single
  | _ => .unit

namespace Expr

/-- An integer literal. -/
def ofInt (value : Int32) (span : Span) : Expr := .literal (.int value) .int none span

/-- A boolean literal. -/
def ofBool (value : Bool) (span : Span) : Expr := .literal (.bool value) .boolean none span

/-- A character literal. -/
def ofChar (code : Int32) (span : Span) : Expr := .literal (.char code) .char none span

/-- A coordinate literal. -/
def ofCoord (packed : Int32) (span : Span) : Expr := .literal (.coord packed) .coord none span

/-- A 64-bit literal. -/
def ofLong (value : Int64) (span : Span) : Expr := .literal (.long value) .long none span

/-- A string literal. -/
def ofString (value : String) (span : Span) : Expr := .literal (.string value) .string none span

/-- The null literal of a type. -/
def nullOf (ty : Ty) (span : Span) : Expr := .literal .null ty none span

/-- A string literal that names a configuration entry. -/
def ofConfigString (config : ConfigSymbol) (span : Span) : Expr :=
  .literal (.string config.name) config.ty (some (.config config)) span

/-- A bare name that resolved to a symbol. -/
def ofSymbol (symbol : Symbol) (ty : Ty) (span : Span) : Expr :=
  .identifier symbol.name ty (some symbol) span

/-- A bare name of a configuration entry. -/
def ofConfig (config : ConfigSymbol) (span : Span) : Expr :=
  ofSymbol (.config config) config.ty span

/-- A bare name that resolved to nothing. -/
def ofOpenName (name : String) (ty : Ty) (span : Span) : Expr := .identifier name ty none span

/-- A local variable. -/
def ofLocal (symbol : LocalSymbol) (span : Span) : Expr :=
  .localVar symbol.name symbol.ty (some (.localVar symbol)) span

/-- An element of a local array. -/
def ofElement (symbol : LocalSymbol) (index : Expr) (span : Span) : Expr :=
  .element symbol.name index symbol.ty.elementType (some (.localVar symbol)) span

/-- A game variable. -/
def ofGame (symbol : GameSymbol) (secondary : Bool) (span : Span) : Expr :=
  .gameVar symbol.name secondary symbol.ty (some (.gameVar symbol)) span

/-- A named constant, with its value if that is known. -/
def ofConstant (symbol : ConstantSymbol) (ty : Ty) (value : Option Expr) (span : Span) : Expr :=
  match value with
  | some value => .constant symbol.name ty value span
  | none => .openConstant symbol.name ty span

/-- Arithmetic of the type of the left operand. -/
def ofArithmetic (left : Expr) (op : ArithmeticOp) (right : Expr) (span : Span) : Expr :=
  .arithmetic left op right left.ty span

/-- A calculation of the type of what it calculates. -/
def ofCalculation (inner : Expr) (span : Span) : Expr := .calculation inner inner.ty span

/-- A call of a command. -/
def ofCommand (symbol : CommandSymbol) (args : List Expr) (secondary : Bool) (span : Span) :
    Expr :=
  .call
    ⟨.command, symbol.name, secondary, Ty.ofReturns symbol.returns, some (.command symbol), span⟩
    args

/-- A call of a proc. -/
def ofProc (symbol : ScriptSymbol) (args : List Expr) (span : Span) : Expr :=
  .call ⟨.proc, symbol.name, false, Ty.ofReturns symbol.returns, some (.script symbol), span⟩ args

/-- A jump to a label. -/
def ofJump (symbol : ScriptSymbol) (args : List Expr) (span : Span) : Expr :=
  .call ⟨.jump, symbol.name, false, .unit, some (.script symbol), span⟩ args

/-- A call of something that resolved to nothing. -/
def ofOpenCall (kind : CallKind) (name : String) (args : List Expr) (span : Span) : Expr :=
  .call ⟨kind, name, false, .unit, none, span⟩ args

end Expr

namespace Stmt

/-- The declaration of a local variable. -/
def ofLocal (symbol : LocalSymbol) (initial : Option Expr) (span : Span) : Stmt :=
  .declare symbol.name symbol.ty (some (.localVar symbol)) initial span

/-- The declaration of a local array. -/
def ofArray (symbol : LocalSymbol) (size : Expr) (span : Span) : Stmt :=
  .declareArray symbol.name symbol.ty (some (.localVar symbol)) size span

/-- A conditional with one or two arms. -/
def ofIf (condition : Expr) (onTrue : Stmt) (onFalse : Option Stmt) (span : Span) : Stmt :=
  match onFalse with
  | some onFalse => .ifElse condition onTrue onFalse span
  | none => .ifThen condition onTrue span

end Stmt

end ScriptBackend

import Mathlib.Data.List.Forall2
import ScriptBackend.Lowering.Stmt
import ScriptBackend.Proofs.Stacks.Effects

/-!
# Typing by stacks

A tree is well-typed by stacks when every expression leaves the values that its surroundings take,
each on the stack that they take it from. Finer types do not matter here: an `obj` is as good as an
`int`. Every value expression but a call leaves what its own type says, a call what its callee
returns. A jump leaves nothing and does not return, so it stands only where an expression is
evaluated for its effects.
-/

namespace ScriptBackend

/-- The stack that the value of a literal is pushed on; a string bound to a symbol is a reference to
it, and null is of the type that it is given. -/
def Literal.stack? (value : Literal) (ty : Ty) (symbol : Option Symbol) : Option StackType :=
  match value with
  | .int _ | .bool _ | .char _ | .coord _ => some .integer
  | .long _ => some .long
  | .string _ => if symbol.isSome then some .integer else some .string
  | .null => ty.stackType?

/-- The stacks of the values that a bare name leaves. A configuration entry is referred to by an
integer, and commands and scripts are invoked without arguments. A label script does not return,
and a constant has no value of its own. -/
def Symbol.bareValues? : Symbol → Option (List StackType)
  | .config _ => some [.integer]
  | .localVar symbol => symbol.ty.stackType?.map fun stack => [stack]
  | .gameVar symbol => symbol.ty.stackType?.map fun stack => [stack]
  | .command symbol =>
    if symbol.parameters = [] then some (stackTypesOf symbol.returns) else none
  | .script symbol =>
    if symbol.parameters = [] ∧ symbol.trigger ≠ .label then some (stackTypesOf symbol.returns)
    else none
  | .constant _ => none

/-- The parameters and returns of what a call that returns names as its callee. -/
def CallHead.signature? (head : CallHead) : Option (List Ty × List Ty) :=
  match head.kind, head.symbol with
  | .command, some (.command symbol) => some (symbol.parameters, symbol.returns)
  | .proc, some (.script symbol) => some (symbol.parameters, symbol.returns)
  | _, _ => none

mutual

/-- Whether a value expression is well-typed and leaves values on some stacks, the last on top. -/
inductive Expr.Yields : Expr → List StackType → Prop where
  | literal {value : Literal} {ty : Ty} {symbol : Option Symbol} {span : Span} {stack : StackType}
      (hvalue : value.stack? ty symbol = some stack) (hty : ty.stackType? = some stack) :
      Yields (.literal value ty symbol span) [stack]
  | identifier {name : String} {ty : Ty} {symbol : Symbol} {span : Span}
      (hsymbol : symbol.bareValues? = some (stackTypesOf ty.asValues)) :
      Yields (.identifier name ty (some symbol) span) (stackTypesOf ty.asValues)
  | localVar {name : String} {ty : Ty} {symbol : LocalSymbol} {span : Span} {stack : StackType}
      (hsymbol : symbol.ty.stackType? = some stack) (hty : ty.stackType? = some stack) :
      Yields (.localVar name ty (some (.localVar symbol)) span) [stack]
  /-- Elements are integers, and so are their indices. -/
  | element {name : String} {index : Expr} {ty : Ty} {symbol : LocalSymbol} {span : Span}
      (hsymbol : symbol.ty.elementType.stackType? = some .integer)
      (hty : ty.stackType? = some .integer) (hindex : Yields index [.integer]) :
      Yields (.element name index ty (some (.localVar symbol)) span) [.integer]
  | gameVar {name : String} {secondary : Bool} {ty : Ty} {symbol : GameSymbol} {span : Span}
      {stack : StackType} (hsymbol : symbol.ty.stackType? = some stack)
      (hty : ty.stackType? = some stack) :
      Yields (.gameVar name secondary ty (some (.gameVar symbol)) span) [stack]
  | constant {name : String} {ty : Ty} {value : Expr} {span : Span}
      (hvalue : Yields value (stackTypesOf ty.asValues)) :
      Yields (.constant name ty value span) (stackTypesOf ty.asValues)
  /-- Both operands are of the stack of the result. -/
  | arithmetic {left right : Expr} {op : ArithmeticOp} {ty : Ty} {span : Span} {stack : StackType}
      (hty : ty.stackType? = some stack) (hleft : Yields left [stack])
      (hright : Yields right [stack]) :
      Yields (.arithmetic left op right ty span) [stack]
  | calculation {inner : Expr} {ty : Ty} {span : Span}
      (hinner : Yields inner (stackTypesOf ty.asValues)) :
      Yields (.calculation inner ty span) (stackTypesOf ty.asValues)
  | paren {inner : Expr} {span : Span} {values : List StackType} (hinner : Yields inner values) :
      Yields (.paren inner span) values
  /-- The arguments leave what the callee takes. -/
  | call {head : CallHead} {args : List Expr} {parameters returns : List Ty}
      (hcallee : head.signature? = some (parameters, returns))
      (hargs : Expr.YieldAll args (stackTypesOf parameters)) :
      Yields (.call head args) (stackTypesOf returns)
  /-- All parts are strings. -/
  | joined {parts : List Expr} {span : Span}
      (hparts : Expr.YieldAll parts (List.replicate parts.length .string)) :
      Yields (.joined parts span) [.string]

/-- Whether value expressions are well-typed and leave values on some stacks, one after another. -/
inductive Expr.YieldAll : List Expr → List StackType → Prop where
  | nil : YieldAll [] []
  | cons {first : Expr} {rest : List Expr} {values others : List StackType}
      (hfirst : Expr.Yields first values) (hrest : YieldAll rest others) :
      YieldAll (first :: rest) (values ++ others)

end

/-- Whether an expression is a well-typed jump: its arguments leave what the label script takes. A
bare name of a label script without parameters is a jump too. -/
inductive Expr.Jumps : Expr → Prop where
  | call {head : CallHead} {args : List Expr} {symbol : ScriptSymbol} (hkind : head.kind = .jump)
      (hsymbol : head.symbol = some (.script symbol))
      (hargs : Expr.YieldAll args (stackTypesOf symbol.parameters)) : Jumps (.call head args)
  | identifier {name : String} {symbol : ScriptSymbol} {span : Span}
      (htrigger : symbol.trigger = .label) (hparameters : symbol.parameters = []) :
      Jumps (.identifier name .unit (some (.script symbol)) span)
  | paren {inner : Expr} {span : Span} (hinner : Jumps inner) : Jumps (.paren inner span)

/-- Whether a condition is well-typed: what is compared is of one stack, which the type of the left
operand tells. -/
inductive Expr.IsTest : Expr → Prop where
  | join {left right : Expr} {connective : Connective} {span : Span} (hleft : IsTest left)
      (hright : IsTest right) : IsTest (.condition left (.join connective) right span)
  | compare {left right : Expr} {comparison : Comparison} {span : Span} {stack : StackType}
      (hty : left.ty.stackType? = some stack) (hleft : Expr.Yields left [stack])
      (hright : Expr.Yields right [stack]) :
      IsTest (.condition left (.compare comparison) right span)
  | paren {inner : Expr} {span : Span} (hinner : IsTest inner) : IsTest (.paren inner span)

/-- Whether an expression is a well-typed target of assignments that takes a value from a stack. -/
inductive Expr.Takes : Expr → StackType → Prop where
  | localVar {name : String} {ty : Ty} {symbol : LocalSymbol} {span : Span} {stack : StackType}
      (hsymbol : symbol.ty.stackType? = some stack) :
      Takes (.localVar name ty (some (.localVar symbol)) span) stack
  | element {name : String} {index : Expr} {ty : Ty} {symbol : LocalSymbol} {span : Span}
      (hsymbol : symbol.ty.elementType.stackType? = some .integer)
      (hindex : Expr.Yields index [.integer]) :
      Takes (.element name index ty (some (.localVar symbol)) span) .integer
  | gameVar {name : String} {secondary : Bool} {ty : Ty} {symbol : GameSymbol} {span : Span}
      {stack : StackType} (hsymbol : symbol.ty.stackType? = some stack) :
      Takes (.gameVar name secondary ty (some (.gameVar symbol)) span) stack

/-- Whether a statement of a script with some returns is well-typed. -/
inductive Stmt.IsTyped (returns : List Ty) : Stmt → Prop where
  | block {body : List Stmt} {span : Span} (hbody : ∀ s ∈ body, IsTyped returns s) :
      IsTyped returns (.block body span)
  | ifThen {condition : Expr} {onTrue : Stmt} {span : Span} (hcondition : condition.IsTest)
      (htrue : IsTyped returns onTrue) : IsTyped returns (.ifThen condition onTrue span)
  | ifElse {condition : Expr} {onTrue onFalse : Stmt} {span : Span} (hcondition : condition.IsTest)
      (htrue : IsTyped returns onTrue) (hfalse : IsTyped returns onFalse) :
      IsTyped returns (.ifElse condition onTrue onFalse span)
  | whileLoop {condition : Expr} {body : Stmt} {span : Span} (hcondition : condition.IsTest)
      (hbody : IsTyped returns body) : IsTyped returns (.whileLoop condition body span)
  /-- The subject leaves one value, on whichever stack. -/
  | switch {ty : Ty} {subject : Expr} {cases : List Case} {span : Span} {stack : StackType}
      (hsubject : Expr.Yields subject [stack])
      (hcases : ∀ c ∈ cases, ∀ s ∈ c.body, IsTyped returns s) :
      IsTyped returns (.switch ty subject cases span)
  | leave {values : List Expr} {span : Span}
      (hvalues : Expr.YieldAll values (stackTypesOf returns)) :
      IsTyped returns (.leave values span)
  /-- The values are what the targets take. -/
  | assign {targets values : List Expr} {span : Span} {kinds : List StackType}
      (htargets : List.Forall₂ Expr.Takes targets kinds)
      (hvalues : Expr.YieldAll values kinds) : IsTyped returns (.assign targets values span)
  | declare {name : String} {ty : Ty} {symbol : LocalSymbol} {initial : Option Expr} {span : Span}
      {stack : StackType} (hsymbol : symbol.ty.stackType? = some stack)
      (hty : ty.stackType? = some stack) (hinitial : ∀ value ∈ initial, Expr.Yields value [stack]) :
      IsTyped returns (.declare name ty (some (.localVar symbol)) initial span)
  | declareArray {name : String} {ty : Ty} {symbol : LocalSymbol} {size : Expr} {span : Span}
      (hsize : Expr.Yields size [.integer]) :
      IsTyped returns (.declareArray name ty (some (.localVar symbol)) size span)
  | evaluate {value : Expr} {span : Span} {values : List StackType}
      (hvalue : Expr.Yields value values) : IsTyped returns (.evaluate value span)
  | jump {value : Expr} {span : Span} (hvalue : Expr.Jumps value) :
      IsTyped returns (.evaluate value span)
  | empty {span : Span} : IsTyped returns (.empty span)

/-- Whether all statements of a declaration are well-typed. -/
def ScriptDecl.IsTyped (decl : ScriptDecl) : Prop :=
  ∀ s ∈ decl.body, s.IsTyped decl.symbol.returns

/-- A single value of a type with a stack. -/
theorem stackTypesOf_asValues {ty : Ty} {stack : StackType} (h : ty.stackType? = some stack) :
    stackTypesOf ty.asValues = [stack] := by
  cases ty with
  | scalar element =>
    cases h
    rfl
  | array element => cases h
  | unit => cases h

/-- A well-typed value expression leaves what its types say. -/
theorem Expr.Yields.eq_producedTypes : ∀ {e : Expr} {values : List StackType},
    e.Yields values → values = stackTypesOf e.producedTypes
  | _, _, .literal _ hty | _, _, .localVar _ hty | _, _, .element _ hty _ | _, _, .gameVar _ hty
  | _, _, .arithmetic hty _ _ => (stackTypesOf_asValues hty).symm
  | _, _, .identifier _ | _, _, .constant _ | _, _, .calculation _ | _, _, .joined _ => rfl
  | _, _, .paren hinner => by
    rw [Expr.producedTypes]
    exact hinner.eq_producedTypes
  | _, _, @Expr.Yields.call head args parameters returns hcallee _ => by
    unfold CallHead.signature? at hcallee
    unfold Expr.producedTypes
    split at hcallee
    · next hkind hsymbol =>
      cases hcallee
      rw [hkind, hsymbol]
    · next hkind hsymbol =>
      cases hcallee
      rw [hkind, hsymbol]
    · cases hcallee

end ScriptBackend

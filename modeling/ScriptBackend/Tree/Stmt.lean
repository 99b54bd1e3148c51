import ScriptBackend.Tree.Expr

/-!
# Statements and declarations

Statements nest through blocks, conditionals, loops and the cases of switches. A script declaration
is a symbol with parameters and a body; a file is a list of declarations.
-/

namespace ScriptBackend

mutual

/-- A statement. -/
inductive Stmt where
  /-- Statements in braces. -/
  | block (body : List Stmt) (span : Span)
  /-- A conditional with one arm. -/
  | ifThen (condition : Expr) (onTrue : Stmt) (span : Span)
  /-- A conditional with two arms. -/
  | ifElse (condition : Expr) (onTrue onFalse : Stmt) (span : Span)
  /-- A loop that tests before each round. -/
  | whileLoop (condition : Expr) (body : Stmt) (span : Span)
  /-- A choice among cases by the value of the subject. -/
  | switch (ty : Ty) (subject : Expr) (cases : List Case) (span : Span)
  /-- Leave the script with values. -/
  | leave (values : List Expr) (span : Span)
  /-- Store values into variables. -/
  | assign (targets values : List Expr) (span : Span)
  /-- Declare a local variable, with or without a first value. -/
  | declare (name : String) (ty : Ty) (symbol : Option Symbol) (initial : Option Expr)
      (span : Span)
  /-- Declare a local array of a size. -/
  | declareArray (name : String) (ty : Ty) (symbol : Option Symbol) (size : Expr) (span : Span)
  /-- Evaluate an expression for its effects. -/
  | evaluate (value : Expr) (span : Span)
  /-- Do nothing. -/
  | empty (span : Span)

/-- A case of a switch: the keys it answers to and its statements. -/
inductive Case where
  /-- A case; a default case also takes every value that no key matches. -/
  | mk (keys : List Expr) (isDefault : Bool) (body : List Stmt) (span : Span)

end

namespace Case

/-- The keys of a case. -/
def keys : Case → List Expr
  | .mk keys _ _ _ => keys

/-- Whether a case takes the values that no key matches. -/
def isDefault : Case → Bool
  | .mk _ isDefault _ _ => isDefault

/-- The statements of a case. -/
def body : Case → List Stmt
  | .mk _ _ body _ => body

/-- Where a case stands. -/
def span : Case → Span
  | .mk _ _ _ span => span

end Case

namespace Stmt

/-- Where a statement stands. -/
def span : Stmt → Span
  | .block _ span => span
  | .ifThen _ _ span => span
  | .ifElse _ _ _ span => span
  | .whileLoop _ _ span => span
  | .switch _ _ _ span => span
  | .leave _ span => span
  | .assign _ _ span => span
  | .declare _ _ _ _ span => span
  | .declareArray _ _ _ _ span => span
  | .evaluate _ span => span
  | .empty span => span

/-- The statement moved to another position. -/
def withSpan (span : Span) : Stmt → Stmt
  | .block body _ => .block body span
  | .ifThen condition onTrue _ => .ifThen condition onTrue span
  | .ifElse condition onTrue onFalse _ => .ifElse condition onTrue onFalse span
  | .whileLoop condition body _ => .whileLoop condition body span
  | .switch ty subject cases _ => .switch ty subject cases span
  | .leave values _ => .leave values span
  | .assign targets values _ => .assign targets values span
  | .declare name ty symbol initial _ => .declare name ty symbol initial span
  | .declareArray name ty symbol size _ => .declareArray name ty symbol size span
  | .evaluate value _ => .evaluate value span
  | .empty _ => .empty span

/-- A declaration with another type; every other statement is kept. -/
def withTy (ty : Ty) : Stmt → Stmt
  | .declare name _ symbol initial span => .declare name ty symbol initial span
  | .declareArray name _ symbol size span => .declareArray name ty symbol size span
  | other => other

/-- A declaration bound to another symbol or to none; every other statement is kept. -/
def withSymbol (symbol : Option Symbol) : Stmt → Stmt
  | .declare name ty _ initial span => .declare name ty symbol initial span
  | .declareArray name ty _ size span => .declareArray name ty symbol size span
  | other => other

/-- A declaration under another name; every other statement is kept. -/
def withName (name : String) : Stmt → Stmt
  | .declare _ ty symbol initial span => .declare name ty symbol initial span
  | .declareArray _ ty symbol size span => .declareArray name ty symbol size span
  | other => other

end Stmt

/-- A script with its parameters and statements. -/
structure ScriptDecl where
  /-- The script that is declared. -/
  symbol : ScriptSymbol
  /-- The parameters, in order. -/
  parameters : List LocalSymbol := []
  /-- The statements. -/
  body : List Stmt
  /-- Where the declaration stands. -/
  span : Span

/-- The declarations of one source file. -/
structure ScriptFile where
  /-- The file's name. -/
  name : String
  /-- The declarations, in order. -/
  scripts : List ScriptDecl

end ScriptBackend

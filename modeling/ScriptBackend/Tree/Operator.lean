/-!
# Operators

A condition is a comparison of two values or a connective of two conditions. Arithmetic operators
stand only inside calculations. The signs `&` and `|` are shared: between conditions they are
connectives that decide from left to right, inside a calculation they work on bits.
-/

namespace ScriptBackend

/-- How two values are compared. -/
inductive Comparison where
  | equals
  | notEquals
  | lessThan
  | greaterThan
  | lessThanOrEquals
  | greaterThanOrEquals
  deriving DecidableEq, Repr

/-- Every comparison. -/
def Comparison.all : List Comparison :=
  [.equals, .notEquals, .lessThan, .greaterThan, .lessThanOrEquals, .greaterThanOrEquals]

/-- The sign of a comparison. -/
def Comparison.sign : Comparison → String
  | .equals => "="
  | .notEquals => "!"
  | .lessThan => "<"
  | .greaterThan => ">"
  | .lessThanOrEquals => "<="
  | .greaterThanOrEquals => ">="

/-- The name of a comparison. -/
def Comparison.name : Comparison → String
  | .equals => "Equals"
  | .notEquals => "NotEquals"
  | .lessThan => "LessThan"
  | .greaterThan => "GreaterThan"
  | .lessThanOrEquals => "LessThanOrEquals"
  | .greaterThanOrEquals => "GreaterThanOrEquals"

/-- The comparison of a name. -/
def Comparison.ofName? (text : String) : Option Comparison :=
  Comparison.all.find? fun comparison => comparison.name = text

/-- How two conditions are joined; the second is tried only if the first leaves the outcome
open. -/
inductive Connective where
  | and
  | or
  deriving DecidableEq, Repr

/-- The sign of a connective. -/
def Connective.sign : Connective → String
  | .and => "&"
  | .or => "|"

/-- The operator of a condition. -/
inductive ConditionOp where
  /-- Compare two values. -/
  | compare (comparison : Comparison)
  /-- Join two conditions. -/
  | join (connective : Connective)
  deriving DecidableEq, Repr

namespace ConditionOp

/-- Every operator of a condition. -/
def all : List ConditionOp := Comparison.all.map compare ++ [.join .and, .join .or]

/-- The sign of a condition operator. -/
def sign : ConditionOp → String
  | .compare comparison => comparison.sign
  | .join connective => connective.sign

/-- The name of a condition operator. -/
def name : ConditionOp → String
  | .compare comparison => comparison.name
  | .join .and => "And"
  | .join .or => "Or"

/-- Whether the operator joins conditions. -/
def isLogical : ConditionOp → Bool
  | .compare _ => false
  | .join _ => true

/-- The condition operator of a sign. -/
def ofSign? (text : String) : Option ConditionOp := all.find? fun op => op.sign = text

/-- A sign stands for the operator that it is the sign of. -/
theorem ofSign?_sign (op : ConditionOp) : ofSign? op.sign = some op := by
  rcases op with comparison | connective
  · cases comparison <;> decide
  · cases connective <;> decide

end ConditionOp

/-- The operators of calculations. -/
inductive ArithmeticOp where
  | add
  | sub
  | multiply
  | divide
  | modulo
  /-- Bitwise conjunction. -/
  | and
  /-- Bitwise disjunction. -/
  | or
  deriving DecidableEq, Repr

namespace ArithmeticOp

/-- Every operator of a calculation. -/
def all : List ArithmeticOp := [.add, .sub, .multiply, .divide, .modulo, .and, .or]

/-- The sign of an arithmetic operator. -/
def sign : ArithmeticOp → String
  | .add => "+"
  | .sub => "-"
  | .multiply => "*"
  | .divide => "/"
  | .modulo => "%"
  | .and => "&"
  | .or => "|"

/-- The name of an arithmetic operator. -/
def name : ArithmeticOp → String
  | .add => "Add"
  | .sub => "Sub"
  | .multiply => "Multiply"
  | .divide => "Divide"
  | .modulo => "Modulo"
  | .and => "And"
  | .or => "Or"

/-- The arithmetic operator of a sign. -/
def ofSign? (text : String) : Option ArithmeticOp := all.find? fun op => op.sign = text

/-- A sign stands for the operator that it is the sign of. -/
theorem ofSign?_sign (op : ArithmeticOp) : ofSign? op.sign = some op := by
  cases op <;> decide

end ArithmeticOp

/-- How a call passes control. -/
inductive CallKind where
  /-- To a command of the engine, which returns. -/
  | command
  /-- To a proc, which returns. -/
  | proc
  /-- To a label, which does not return. -/
  | jump
  deriving DecidableEq, Repr

/-- The word for a way to pass control. -/
def CallKind.name : CallKind → String
  | .command => "command"
  | .proc => "proc"
  | .jump => "jump"

/-- The way to pass control that a word stands for. -/
def CallKind.ofName? (text : String) : Option CallKind :=
  [CallKind.command, .proc, .jump].find? fun kind => kind.name = text

end ScriptBackend

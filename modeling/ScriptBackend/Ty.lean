/-!
# Types of the script language

A value lives on one of three stacks, chosen by its stack type. Scalar types are the types of
single values; each has a name and a one-character code for argument descriptions. A type of the
language is a scalar, a local array of scalars, or the unit type of no value. Only scalars have a
stack type.
-/

namespace ScriptBackend

/-- The stack that holds a value. -/
inductive StackType where
  /-- 32-bit integers; references and booleans live here too. -/
  | integer
  /-- Strings. -/
  | string
  /-- 64-bit integers. -/
  | long
  deriving DecidableEq, Repr

/-- The name of a stack. -/
def StackType.name : StackType → String
  | .integer => "integer"
  | .string => "string"
  | .long => "long"

/-- The three stacks, in the order in which slot counts are listed. -/
def StackType.all : List StackType := [.integer, .string, .long]

/-- The stack of a name. -/
def StackType.ofName? (text : String) : Option StackType :=
  StackType.all.find? fun stack => stack.name = text

/-- Types of single values. -/
inductive Scalar where
  | int
  | boolean
  | char
  | coord
  | long
  | string
  | obj
  | namedObj
  | npc
  | loc
  | inv
  | stat
  | enum
  | component
  | seq
  | spotanim
  | category
  | param
  | struct
  | synth
  deriving DecidableEq, Repr

namespace Scalar

/-- Every scalar type. -/
def all : List Scalar :=
  [.int, .boolean, .char, .coord, .long, .string, .obj, .namedObj, .npc, .loc, .inv, .stat, .enum,
    .component, .seq, .spotanim, .category, .param, .struct, .synth]

/-- Longs and strings have stacks of their own; every other scalar is an integer. -/
def stackType : Scalar → StackType
  | .long => .long
  | .string => .string
  | _ => .integer

/-- The one-character code of a scalar in an argument description. -/
def code : Scalar → Char
  | .int => 'i'
  | .boolean => '1'
  | .char => 'z'
  | .coord => 'c'
  | .long => 'Ï'
  | .string => 's'
  | .obj => 'o'
  | .namedObj => 'O'
  | .npc => 'n'
  | .loc => 'l'
  | .inv => 'v'
  | .stat => 'S'
  | .enum => 'g'
  | .component => 'I'
  | .seq => 'A'
  | .spotanim => 't'
  | .category => 'y'
  | .param => 'à'
  | .struct => 'J'
  | .synth => 'P'

/-- The name of a scalar. -/
def name : Scalar → String
  | .int => "int"
  | .boolean => "boolean"
  | .char => "char"
  | .coord => "coord"
  | .long => "long"
  | .string => "string"
  | .obj => "obj"
  | .namedObj => "namedobj"
  | .npc => "npc"
  | .loc => "loc"
  | .inv => "inv"
  | .stat => "stat"
  | .enum => "enum"
  | .component => "component"
  | .seq => "seq"
  | .spotanim => "spotanim"
  | .category => "category"
  | .param => "param"
  | .struct => "struct"
  | .synth => "synth"

/-- The scalar of a given name. -/
def ofName? (text : String) : Option Scalar := all.find? fun scalar => scalar.name = text

/-- Every scalar is listed. -/
theorem mem_all (scalar : Scalar) : scalar ∈ all := by cases scalar <;> decide

end Scalar

/-- A resolved type of an expression, a variable or a signature. -/
inductive Ty where
  /-- A single value. -/
  | scalar (element : Scalar)
  /-- A local array of single values. -/
  | array (element : Scalar)
  /-- No value. -/
  | unit
  deriving DecidableEq, Repr

namespace Ty

/-- The type of integers. -/
abbrev int : Ty := .scalar .int

/-- The type of booleans. -/
abbrev boolean : Ty := .scalar .boolean

/-- The type of strings. -/
abbrev string : Ty := .scalar .string

/-- The type of 64-bit integers. -/
abbrev long : Ty := .scalar .long

/-- The type of packed coordinates. -/
abbrev coord : Ty := .scalar .coord

/-- The type of characters. -/
abbrev char : Ty := .scalar .char

/-- The stack of a value of the type. An array is reached element by element and unit has no
value, so neither has one. -/
def stackType? : Ty → Option StackType
  | .scalar element => some element.stackType
  | .array _ | .unit => none

/-- The scalar that a scalar type is. -/
def scalar? : Ty → Option Scalar
  | .scalar element => some element
  | .array _ | .unit => none

/-- Whether the type is an array type. -/
def isArray : Ty → Bool
  | .array _ => true
  | .scalar _ | .unit => false

/-- The type of an element reached by an index: the element type of an array, else the type
itself. -/
def elementType : Ty → Ty
  | .array element => .scalar element
  | other => other

/-- The slot space of a variable of the type; arrays are addressed through integers. -/
def slotSpace : Ty → StackType
  | .scalar element => element.stackType
  | .array _ | .unit => .integer

/-- The name of a type. -/
def name : Ty → String
  | .scalar element => element.name
  | .array element => element.name ++ "array"
  | .unit => "unit"

/-- The type that a name stands for. -/
def ofName? (text : String) : Option Ty :=
  if text = "unit" then some .unit
  else
    match Scalar.ofName? text with
    | some element => some (.scalar element)
    | none => (Scalar.all.find? fun element => element.name ++ "array" = text).map .array

/-- A type with a stack is kept in the slot space of that stack. -/
theorem slotSpace_eq_of_stackType? {ty : Ty} {stack : StackType}
    (h : ty.stackType? = some stack) : ty.slotSpace = stack := by
  cases ty <;> simp_all [stackType?, slotSpace]

end Ty

end ScriptBackend

import ScriptBackend.Named
import ScriptBackend.Symbol.Basic

/-!
# Slots of local variables

Each variable of a script has a slot in the slot space of its stack; every space counts from zero.
Parameters take their slots first and one each. A declared local takes a slot only if no variable
of its name has one yet, for otherwise it shares the latest slot of that name. Beside the slots a
table keeps where the latest slot of each name stands, and for each space how many slots and how
many parameters it has.
-/

namespace ScriptBackend

/-- A variable and its place. -/
structure Slot where
  /-- The variable. -/
  symbol : LocalSymbol
  /-- The number of the slot within the variable's slot space. -/
  index : Nat
  /-- Whether the variable is a parameter. -/
  isParameter : Bool
  deriving DecidableEq, Repr

/-- A counter for each slot space. -/
structure SpaceCounts where
  /-- The count of the integer space. -/
  integer : Nat := 0
  /-- The count of the string space. -/
  string : Nat := 0
  /-- The count of the long space. -/
  long : Nat := 0
  deriving DecidableEq, Repr

namespace SpaceCounts

/-- The count of a space. -/
def of (counts : SpaceCounts) : StackType → Nat
  | .integer => counts.integer
  | .string => counts.string
  | .long => counts.long

/-- The counters with one more in a space. -/
def bump (counts : SpaceCounts) : StackType → SpaceCounts
  | .integer => { counts with integer := counts.integer + 1 }
  | .string => { counts with string := counts.string + 1 }
  | .long => { counts with long := counts.long + 1 }

/-- One more in a space changes the count of that space only. -/
@[simp] theorem of_bump (counts : SpaceCounts) (space other : StackType) :
    (counts.bump space).of other = counts.of other + if space = other then 1 else 0 := by
  cases space <;> cases other <;> rfl

end SpaceCounts

/-- The slots of a script's parameters and locals. -/
structure LocalTable where
  /-- The slots, in the order in which they were taken. -/
  slots : List Slot := []
  /-- Where the latest slot of each name stands; a name occurs once. -/
  byName : List (String × Nat) := []
  /-- The number of slots in each space. -/
  counts : SpaceCounts := {}
  /-- The number of parameters in each space. -/
  parameterCounts : SpaceCounts := {}
  deriving DecidableEq, Repr

namespace LocalTable

/-- The number of slots in a space, parameters included. -/
def count (table : LocalTable) (space : StackType) : Nat := table.counts.of space

/-- The number of parameters in a space. -/
def parameterCount (table : LocalTable) (space : StackType) : Nat :=
  table.parameterCounts.of space

/-- The slot that stands where a name leads. -/
def find? (table : LocalTable) (name : String) : Option Slot :=
  (table.byName.lookup name).bind fun position => table.slots[position]?

/-- The number of the slot that a name leads to. -/
def indexOf? (table : LocalTable) (name : String) : Option Nat :=
  (table.find? name).map Slot.index

/-- The slot that a variable would take next. -/
def nextSlot (table : LocalTable) (symbol : LocalSymbol) (isParameter : Bool) : Slot :=
  ⟨symbol, table.count symbol.space, isParameter⟩

/-- The table after a variable took the next slot, to which its name leads from now on. -/
def take (table : LocalTable) (symbol : LocalSymbol) (isParameter : Bool) : LocalTable :=
  { table with
    slots := table.slots ++ [table.nextSlot symbol isParameter]
    byName := assign table.byName symbol.name table.slots.length
    counts := table.counts.bump symbol.space }

/-- The table after a parameter took its slot. -/
def addParameter (table : LocalTable) (symbol : LocalSymbol) : LocalTable :=
  { table with parameterCounts := table.parameterCounts.bump symbol.space }.take symbol true

/-- The table after a local was declared; a name that has a slot shares it. -/
def addLocal (table : LocalTable) (symbol : LocalSymbol) : LocalTable :=
  match table.byName.lookup symbol.name with
  | some _ => table
  | none => table.take symbol false

/-- The table of some parameters and then some declared locals. -/
def ofSymbols (parameters locals : List LocalSymbol) : LocalTable :=
  locals.foldl addLocal (parameters.foldl addParameter {})

/-- The number of the slot that a declared local has or would take. -/
def slotOfLocal (table : LocalTable) (symbol : LocalSymbol) : Nat :=
  (table.indexOf? symbol.name).getD (table.count symbol.space)

/-- The number of slots. -/
def size (table : LocalTable) : Nat := table.slots.length

/-- Whether no variable has a slot. -/
def isEmpty (table : LocalTable) : Bool := table.slots.isEmpty

end LocalTable

end ScriptBackend

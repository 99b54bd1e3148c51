import ScriptBackend.Named
import ScriptBackend.Pointer.Basic

/-!
# Pointer effects

The contract of an operation says which pointers must be valid before it, which it leaves valid and
which it corrupts. What a conditional contract sets holds only when the operation reports success,
so it is no part of what the operation sets on every outcome.
-/

namespace ScriptBackend

/-- The pointer contract of a command or a script. -/
structure Effects where
  /-- Pointers that must be valid before the operation. -/
  required : PointerSet := ∅
  /-- Pointers that are valid after the operation. -/
  set : PointerSet := ∅
  /-- Whether `set` holds only when the operation reports success. -/
  conditional : Bool := false
  /-- Pointers that the operation invalidates. -/
  corrupted : PointerSet := ∅
  deriving DecidableEq, Repr

namespace Effects

/-- No requirement and no effect. -/
def none : Effects := {}

/-- Add pointers to what is required. -/
def requires (effects : Effects) (pointers : PointerSet) : Effects :=
  { effects with required := effects.required ∪ pointers }

/-- Add pointers to what is set. -/
def sets (effects : Effects) (pointers : PointerSet) : Effects :=
  { effects with set := effects.set ∪ pointers }

/-- Add pointers to what is set and make the whole of it depend on success. -/
def setsOnSuccess (effects : Effects) (pointers : PointerSet) : Effects :=
  { effects with set := effects.set ∪ pointers, conditional := true }

/-- Add pointers to what is corrupted. -/
def corrupts (effects : Effects) (pointers : PointerSet) : Effects :=
  { effects with corrupted := effects.corrupted ∪ pointers }

/-- What is set on every outcome of the operation. -/
def definiteSet (effects : Effects) : PointerSet :=
  if effects.conditional then ∅ else effects.set

/-- Whether the operation leaves the pointers valid whatever happened to them before. -/
def restores (effects : Effects) (pointers : PointerSet) : Bool :=
  effects.definiteSet.contains pointers && !effects.corrupted.contains pointers

/-- Whether no pointer is required, set or corrupted. -/
def isEmpty (effects : Effects) : Bool :=
  effects.required.isEmpty && effects.set.isEmpty && effects.corrupted.isEmpty

end Effects

/-- The contracts of the engine's commands, by name. -/
structure Contracts where
  /-- Each command's contract; a name occurs once. -/
  entries : List (String × Effects) := []
  deriving Repr

namespace Contracts

/-- Give a command a contract, in place of any earlier one. -/
def insert (contracts : Contracts) (command : String) (effects : Effects) : Contracts :=
  ⟨assign contracts.entries command effects⟩

/-- The contracts given to commands in order. -/
def ofList (entries : List (String × Effects)) : Contracts :=
  entries.foldl (fun contracts entry => contracts.insert entry.1 entry.2) {}

/-- The contract of a command; a command without one has no effects. -/
def get (contracts : Contracts) (command : String) : Effects :=
  (contracts.entries.lookup command).getD Effects.none

/-- Whether a command has a contract. -/
def contains (contracts : Contracts) (command : String) : Bool :=
  (contracts.entries.lookup command).isSome

/-- The number of commands with a contract. -/
def size (contracts : Contracts) : Nat := contracts.entries.length

/-- Whether no command has a contract. -/
def isEmpty (contracts : Contracts) : Bool := contracts.entries.isEmpty

/-- A command has the contract that it was last given. -/
@[simp] theorem get_insert_self (contracts : Contracts) (command : String) (effects : Effects) :
    (contracts.insert command effects).get command = effects := by
  simp [insert, get, lookup_assign]

/-- Giving a contract to one command leaves the contract of every other as it was. -/
theorem get_insert_of_ne (contracts : Contracts) {command other : String} (effects : Effects)
    (h : other ≠ command) : (contracts.insert command effects).get other = contracts.get other := by
  simp [insert, get, lookup_assign, Ne.symm h]

end Contracts

end ScriptBackend

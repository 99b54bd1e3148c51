import ScriptBackend.Code.Layout
import ScriptBackend.Code.Slots

/-!
# Compiled scripts

A compiled script is its blocks in layout order with its switch tables and slots. A label leads to
the last block that bears it, and a table number to the first table that has it.
-/

namespace ScriptBackend

/-- The code of one script. -/
structure CompiledScript where
  /-- The script that was compiled. -/
  symbol : ScriptSymbol
  /-- The blocks, in layout order. -/
  blocks : List Block
  /-- The switch tables. -/
  tables : List SwitchTable := []
  /-- The slots of parameters and locals. -/
  locals : LocalTable := {}
  deriving DecidableEq, Repr

/-- The position of the last block that bears a label, if one does. -/
def lastIndexOf? (label : Label) : List Block → Option Nat
  | [] => none
  | block :: rest =>
    match lastIndexOf? label rest with
    | some index => some (index + 1)
    | none => if block.label = label then some 0 else none

namespace CompiledScript

/-- The identity of the script. -/
def id (script : CompiledScript) : ScriptId := script.symbol.id

/-- The position of the block that a label leads to. -/
def blockIndex? (script : CompiledScript) (label : Label) : Option Nat :=
  lastIndexOf? label script.blocks

/-- The block that a label leads to. -/
def block? (script : CompiledScript) (label : Label) : Option Block :=
  (script.blockIndex? label).bind fun index => script.blocks[index]?

/-- The switch table of a number. -/
def table? (script : CompiledScript) (id : Nat) : Option SwitchTable :=
  script.tables.find? fun table => table.id = id

/-- All instructions in layout order, markers included. -/
def instructions (script : CompiledScript) : List Instruction :=
  script.blocks.flatMap Block.instructions

/-- The listing of a script: its name, then each label with its instructions below it. -/
def text (script : CompiledScript) : String :=
  script.symbol.text ++ "\n" ++ String.join (script.blocks.map fun block =>
    "  " ++ block.label.name ++ ":\n" ++ String.join (block.instructions.map fun instruction =>
      "    " ++ instruction.text ++ "\n"))

end CompiledScript

/-- A label leads to a block that bears it. -/
theorem label_of_lastIndexOf? {label : Label} {blocks : List Block} {index : Nat}
    (h : lastIndexOf? label blocks = some index) :
    ∃ block, blocks[index]? = some block ∧ block.label = label := by
  induction blocks generalizing index with
  | nil => simp [lastIndexOf?] at h
  | cons block rest ih =>
    simp only [lastIndexOf?] at h
    split at h
    · next found hfound =>
      cases h
      simpa using ih hfound
    · split at h
      · next hlabel =>
        cases h
        exact ⟨block, rfl, hlabel⟩
      · cases h

/-- A label leads nowhere exactly when no block bears it. -/
theorem lastIndexOf?_eq_none_iff {label : Label} {blocks : List Block} :
    lastIndexOf? label blocks = none ↔ ∀ block ∈ blocks, block.label ≠ label := by
  induction blocks with
  | nil => simp [lastIndexOf?]
  | cons block rest ih =>
    simp only [lastIndexOf?, List.forall_mem_cons]
    split
    · next found hfound =>
      simp only [reduceCtorEq, false_iff, not_and]
      intro _ hall
      rw [ih.mpr hall] at hfound
      cases hfound
    · next hnone =>
      have hrest := ih.mp hnone
      simp only [ite_eq_right_iff, reduceCtorEq, imp_false]
      exact ⟨fun hblock => ⟨hblock, hrest⟩, fun hall => hall.1⟩

end ScriptBackend

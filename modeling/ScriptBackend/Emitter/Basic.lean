import ScriptBackend.Code.Layout
import ScriptBackend.Emitter.Labels
import ScriptBackend.Emitter.Lines

/-!
# Emitter

The emitter lays out the code of one script at a time. Labels are taken from the supply before they
are bound; binding a label opens its block, so the layout is the order of binding, and instructions
go to the block opened last. An instruction without any open block opens the entry block first.
-/

namespace ScriptBackend

/-- The blocks with an instruction added to the last; without a block the entry block is opened. -/
def appendInstruction (instruction : Instruction) : List Block → List Block
  | [] => [⟨.entry, [instruction]⟩]
  | [block] => [block.push instruction]
  | block :: next :: rest => block :: appendInstruction instruction (next :: rest)

/-- An instruction is added after all instructions that are laid out. -/
theorem flatMap_appendInstruction (instruction : Instruction) (blocks : List Block) :
    (appendInstruction instruction blocks).flatMap Block.instructions =
      blocks.flatMap Block.instructions ++ [instruction] := by
  induction blocks with
  | nil => rfl
  | cons block rest ih =>
    cases rest with
    | nil => simp [appendInstruction, Block.push]
    | cons next rest =>
      change block.instructions ++ (appendInstruction instruction (next :: rest)).flatMap _ = _
      rw [ih, ← List.append_assoc, ← List.flatMap_cons]

/-- The state of code layout. -/
structure Emitter where
  /-- The bound blocks in layout order; the last is open. -/
  blocks : List Block := []
  /-- The switch tables, each numbered by its position. -/
  tables : List SwitchTable := []
  /-- The labels supplied so far. -/
  labels : LabelSupply := {}
  /-- The state of line marking. -/
  lines : LineTracker
  deriving DecidableEq, Repr

namespace Emitter

/-- An emitter that has laid out nothing. -/
def new (lineNumbers : Bool) : Emitter := { lines := { enabled := lineNumbers } }

/-- Bind a label: its block is laid out next and takes the instructions that follow. -/
def bind (emitter : Emitter) (label : Label) : Emitter :=
  { emitter with blocks := emitter.blocks ++ [{ label }] }

/-- Begin a script: everything about the script before is forgotten and the entry is bound. -/
def start (emitter : Emitter) : Emitter :=
  bind { labels := emitter.labels.reset, lines := emitter.lines.reset } .entry

/-- The label that a base name gets next. -/
def nextLabel (emitter : Emitter) (base : String) : Label := emitter.labels.next base

/-- The emitter after a label of a base name was taken. -/
def takeLabel (emitter : Emitter) (base : String) : Emitter :=
  { emitter with labels := emitter.labels.take base }

/-- The label of the open block. -/
def currentLabel? (emitter : Emitter) : Option Label := emitter.blocks.getLast?.map Block.label

/-- Add an instruction to the open block. -/
def emit (emitter : Emitter) (instruction : Instruction) : Emitter :=
  { emitter with blocks := appendInstruction instruction emitter.blocks }

/-- Mark the line of a position where that is needed. -/
def markLine (emitter : Emitter) (span : Span) : Emitter :=
  match emitter.lines.marker? span with
  | some marker => { emitter.emit marker with lines := emitter.lines.mark span }
  | none => emitter

/-- The number that the next switch table gets. -/
def nextTable (emitter : Emitter) : Nat := emitter.tables.length

/-- Add a switch table without cases. -/
def addTable (emitter : Emitter) : Emitter :=
  { emitter with tables := emitter.tables ++ [{ id := emitter.nextTable }] }

/-- Add a case to the table at a position; without such a table nothing changes. -/
def addCase (emitter : Emitter) (table : Nat) (case : TableCase) : Emitter :=
  { emitter with tables := emitter.tables.modify table fun table => table.push case }

/-- The emitter after its blocks and tables were taken out. -/
def clear (emitter : Emitter) : Emitter := { emitter with blocks := [], tables := [] }

/-- What a start leaves depends on nothing but whether lines are marked. -/
theorem start_eq (emitter : Emitter) : emitter.start = (new emitter.lines.enabled).start := rfl

end Emitter

end ScriptBackend

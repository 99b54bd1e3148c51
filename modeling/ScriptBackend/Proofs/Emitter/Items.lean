import ScriptBackend.Code.Program
import ScriptBackend.Emitter.Basic

/-!
# Layouts as item lists

A layout read from top to bottom is a list of items, each a bound label or an instruction. Every
operation of the emitter appends to this list, so the code of a part of a script is one contiguous
run of items. A label leads to the place of its item, counted in instructions.
-/

namespace ScriptBackend

/-- A line of a listing. -/
inductive Item where
  /-- A label is bound here. -/
  | bind (label : Label)
  /-- An instruction stands here. -/
  | code (instruction : Instruction)
  deriving DecidableEq, Repr

namespace Item

/-- The label that an item binds. -/
def label? : Item → Option Label
  | .bind label => some label
  | .code _ => none

/-- The instruction that an item is. -/
def instruction? : Item → Option Instruction
  | .bind _ => none
  | .code instruction => some instruction

end Item

/-- The labels that items bind, in order. -/
def boundLabels (items : List Item) : List Label := items.filterMap Item.label?

/-- The instructions among items, in order. -/
def codeOf (items : List Item) : List Instruction := items.filterMap Item.instruction?

section Views

variable (items others : List Item) (instructions : List Instruction) (label : Label)
  (instruction : Instruction)

@[simp] theorem boundLabels_nil : boundLabels [] = [] := rfl

@[simp] theorem boundLabels_bind_cons :
    boundLabels (.bind label :: items) = label :: boundLabels items := rfl

@[simp] theorem boundLabels_code_cons :
    boundLabels (.code instruction :: items) = boundLabels items := rfl

@[simp] theorem boundLabels_append :
    boundLabels (items ++ others) = boundLabels items ++ boundLabels others :=
  List.filterMap_append

@[simp] theorem boundLabels_map_code : boundLabels (instructions.map .code) = [] := by
  induction instructions with
  | nil => rfl
  | cons first rest ih => simpa using ih

@[simp] theorem codeOf_nil : codeOf [] = [] := rfl

@[simp] theorem codeOf_bind_cons : codeOf (.bind label :: items) = codeOf items := rfl

@[simp] theorem codeOf_code_cons :
    codeOf (.code instruction :: items) = instruction :: codeOf items := rfl

@[simp] theorem codeOf_append : codeOf (items ++ others) = codeOf items ++ codeOf others :=
  List.filterMap_append

@[simp] theorem codeOf_map_code : codeOf (instructions.map .code) = instructions := by
  induction instructions with
  | nil => rfl
  | cons first rest ih => simpa using ih

end Views

/-- The items of a block: its label, then its instructions. -/
def Block.items (block : Block) : List Item := .bind block.label :: block.instructions.map .code

/-- The items of a layout. -/
def itemsOf (blocks : List Block) : List Item := blocks.flatMap Block.items

@[simp] theorem itemsOf_nil : itemsOf [] = [] := rfl

@[simp] theorem itemsOf_cons (block : Block) (rest : List Block) :
    itemsOf (block :: rest) = .bind block.label :: block.instructions.map .code ++ itemsOf rest :=
  rfl

/-- The labels of a layout are those that its items bind. -/
@[simp] theorem boundLabels_itemsOf (blocks : List Block) :
    boundLabels (itemsOf blocks) = blocks.map Block.label := by
  induction blocks with
  | nil => rfl
  | cons block rest ih => simp [ih]

/-- The instructions of a layout are those among its items. -/
@[simp] theorem codeOf_itemsOf (blocks : List Block) :
    codeOf (itemsOf blocks) = blocks.flatMap Block.instructions := by
  induction blocks with
  | nil => rfl
  | cons block rest ih => simp [ih]

/-- An instruction that is added to a layout with a block is its last item. -/
theorem itemsOf_appendInstruction (instruction : Instruction) {blocks : List Block}
    (h : blocks ≠ []) :
    itemsOf (appendInstruction instruction blocks) = itemsOf blocks ++ [.code instruction] := by
  induction blocks with
  | nil => exact absurd rfl h
  | cons block rest ih =>
    cases rest with
    | nil => simp [appendInstruction, Block.push]
    | cons next rest =>
      simp only [appendInstruction]
      rw [itemsOf_cons, ih (List.cons_ne_nil _ _), itemsOf_cons block, List.append_assoc]

namespace Emitter

/-- The items laid out so far. -/
def items (emitter : Emitter) : List Item := itemsOf emitter.blocks

/-- Without items there is no block. -/
@[simp] theorem items_eq_nil_iff {emitter : Emitter} :
    emitter.items = [] ↔ emitter.blocks = [] := by
  cases h : emitter.blocks <;> simp [items, h]

end Emitter

namespace CompiledScript

/-- The items of a script, in layout order. -/
def items (script : CompiledScript) : List Item := itemsOf script.blocks

/-- The number of instructions before the block that a label leads to. -/
def offset? (script : CompiledScript) (label : Label) : Option Nat :=
  (script.blockIndex? label).map fun index =>
    ((script.blocks.take index).flatMap Block.instructions).length

@[simp] theorem codeOf_items (script : CompiledScript) :
    codeOf script.items = script.instructions := codeOf_itemsOf _

@[simp] theorem boundLabels_items (script : CompiledScript) :
    boundLabels script.items = script.blocks.map Block.label := boundLabels_itemsOf _

/-- The instruction after a run of items is found by counting the instructions before it. -/
theorem getElem?_instructions {script : CompiledScript} {before after : List Item}
    {instruction : Instruction} (h : script.items = before ++ .code instruction :: after) :
    script.instructions[(codeOf before).length]? = some instruction := by
  rw [← codeOf_items, h]
  simp

end CompiledScript

/-- A label that some block bears leads to the last item that binds it. -/
theorem exists_split_of_lastIndexOf? {label : Label} {blocks : List Block} {index : Nat}
    (h : lastIndexOf? label blocks = some index) :
    ∃ before after, itemsOf blocks = before ++ .bind label :: after ∧
      label ∉ boundLabels after ∧
      codeOf before = (blocks.take index).flatMap Block.instructions := by
  induction blocks generalizing index with
  | nil => cases h
  | cons block rest ih =>
    cases hrest : lastIndexOf? label rest with
    | some found =>
      simp only [lastIndexOf?, hrest, Option.some.injEq] at h
      subst h
      obtain ⟨before, after, hsplit, hlast, hcode⟩ := ih hrest
      refine ⟨block.items ++ before, after, ?_, hlast, ?_⟩
      · rw [itemsOf_cons, hsplit]
        exact (List.append_assoc ..).symm
      · simp [Block.items, hcode]
    | none =>
      simp only [lastIndexOf?, hrest, Option.ite_none_right_eq_some, Option.some.injEq] at h
      obtain ⟨rfl, rfl⟩ := h
      refine ⟨[], block.instructions.map .code ++ itemsOf rest, rfl, ?_, rfl⟩
      simpa using lastIndexOf?_eq_none_iff.mp hrest

namespace CompiledScript

variable {script : CompiledScript} {label : Label}

/-- A label leads to the last item that binds it. -/
theorem exists_split_of_offset? {offset : Nat} (h : script.offset? label = some offset) :
    ∃ before after, script.items = before ++ .bind label :: after ∧
      label ∉ boundLabels after ∧ offset = (codeOf before).length := by
  obtain ⟨index, hindex, rfl⟩ := Option.map_eq_some_iff.mp h
  obtain ⟨before, after, hsplit, hlast, hcode⟩ := exists_split_of_lastIndexOf? hindex
  exact ⟨before, after, hsplit, hlast, by rw [hcode]⟩

/-- A label has a place exactly when an item binds it. -/
theorem exists_offset?_iff :
    (∃ offset, script.offset? label = some offset) ↔ label ∈ boundLabels script.items := by
  constructor
  · rintro ⟨offset, h⟩
    obtain ⟨before, after, hsplit, -, -⟩ := exists_split_of_offset? h
    simp [hsplit]
  · intro hmem
    cases hindex : script.blockIndex? label with
    | some index => exact ⟨_, by rw [offset?, hindex]; rfl⟩
    | none =>
      obtain ⟨block, hblock, hlabel⟩ := List.mem_map.mp (boundLabels_items script ▸ hmem)
      exact absurd hlabel (lastIndexOf?_eq_none_iff.mp hindex block hblock)

/-- A label that is bound once leads to its item. -/
theorem offset?_eq_of_split (hnodup : (boundLabels script.items).Nodup) {before after : List Item}
    (h : script.items = before ++ .bind label :: after) :
    script.offset? label = some (codeOf before).length := by
  obtain ⟨offset, hoffset⟩ := exists_offset?_iff.mpr (show label ∈ boundLabels script.items by
    simp [h])
  obtain ⟨before', after', hsplit, -, rfl⟩ := exists_split_of_offset? hoffset
  rw [hoffset]
  suffices heq : before' = before by rw [heq]
  rw [h] at hsplit hnodup
  rcases List.append_eq_append_iff.mp hsplit with
    ⟨middle, hbefore, hmiddle⟩ | ⟨middle, hbefore, hmiddle⟩
  · cases middle with
    | nil => simpa using hbefore
    | cons first rest =>
      -- a second item of the label would be bound after the first
      rw [List.cons_append, List.cons.injEq] at hmiddle
      simp [hmiddle.2, List.nodup_append, List.nodup_cons] at hnodup
  · cases middle with
    | nil => simpa using hbefore.symm
    | cons first rest =>
      rw [List.cons_append, List.cons.injEq] at hmiddle
      obtain ⟨rfl, -⟩ := hmiddle
      simp [hbefore, List.nodup_append] at hnodup

end CompiledScript

end ScriptBackend

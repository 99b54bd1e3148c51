import Mathlib.Data.List.Nodup
import ScriptBackend.Flow.Build

/-!
# The sequence of real instructions

The sequence of a script lists exactly its instructions that are no markers, each once, from the
first block to the last and from top to bottom. The start of a block in the sequence, which is found
by counting, is the position of the first instruction that stands in the block or in a later one.
-/

namespace ScriptBackend

/-- Whether one place comes before another in the layout. -/
def Location.Before (first second : Location) : Prop :=
  first.block < second.block ∨ first.block = second.block ∧ first.index < second.index

/-- The elements of a list with their positions are in the order of the positions. -/
theorem pairwise_zipIdx {α : Type} (xs : List α) (start : Nat) :
    (xs.zipIdx start).Pairwise fun first second => first.2 < second.2 := by
  have hsnd : ((xs.zipIdx start).map Prod.snd).Pairwise (· < ·) := by
    rw [List.zipIdx_map_snd]
    exact List.pairwise_lt_range'
  exact List.pairwise_map.mp hsnd

/-- The real instructions of a block with their places. -/
def placesOf (place : Block × Nat) : List (Location × Instruction) :=
  (place.1.instructions.zipIdx.filter fun entry => !entry.1.opcode.isMarker).map
    fun entry => (⟨place.2, entry.2⟩, entry.1)

private theorem mem_placesOf {place : Block × Nat} {location : Location}
    {instruction : Instruction} :
    (location, instruction) ∈ placesOf place ↔ location.block = place.2 ∧
      place.1.instructions[location.index]? = some instruction ∧
      instruction.opcode.isMarker = false := by
  obtain ⟨block, index⟩ := location
  simp only [placesOf, List.mem_map, List.mem_filter, List.mem_zipIdx_iff_getElem?, Prod.mk.injEq,
    Location.mk.injEq, Bool.not_eq_true']
  constructor
  · rintro ⟨⟨found, position⟩, ⟨hfound, hmarker⟩, ⟨rfl, rfl⟩, rfl⟩
    exact ⟨rfl, hfound, hmarker⟩
  · rintro ⟨rfl, hfound, hmarker⟩
    exact ⟨(instruction, index), ⟨hfound, hmarker⟩, ⟨rfl, rfl⟩, rfl⟩

/-- The places of a block are those of its real instructions. -/
private theorem map_snd_placesOf (place : Block × Nat) :
    (placesOf place).map Prod.snd = place.1.real := by
  unfold placesOf Block.real
  conv_rhs => rw [← List.zipIdx_map_fst 0 place.1.instructions, List.filter_map]
  rw [List.map_map]
  rfl

/-- The places of blocks are those of their real instructions, block by block. -/
theorem map_snd_flatMap_placesOf (blocks : List Block) (start : Nat) :
    ((blocks.zipIdx start).flatMap placesOf).map Prod.snd = blocks.flatMap Block.real := by
  induction blocks generalizing start with
  | nil => rfl
  | cons block rest ih =>
    rw [List.zipIdx_cons, List.flatMap_cons, List.map_append, ih, map_snd_placesOf,
      List.flatMap_cons]

/-- The places of blocks that are numbered from a start are in a block from there on. -/
private theorem le_block_of_mem_placesOf {blocks : List Block} {start : Nat}
    {place : Location × Instruction} (h : place ∈ (blocks.zipIdx start).flatMap placesOf) :
    start ≤ place.1.block ∧ place.1.block < start + blocks.length := by
  obtain ⟨entry, hentry, hplace⟩ := List.mem_flatMap.mp h
  have hblock := (mem_placesOf.mp hplace).1
  have hle := List.le_snd_of_mem_zipIdx hentry
  have hlt := List.snd_lt_add_of_mem_zipIdx hentry
  omega

namespace CompiledScript

variable {script : CompiledScript}

/-- The sequence of a script has the places of its blocks. -/
theorem sequence_eq (script : CompiledScript) :
    script.sequence = script.blocks.zipIdx.flatMap placesOf := rfl

/-- The sequence holds the instructions that are no markers, at their places. -/
theorem mem_sequence {location : Location} {instruction : Instruction} :
    (location, instruction) ∈ script.sequence ↔
      ∃ block, script.blocks[location.block]? = some block ∧
        block.instructions[location.index]? = some instruction ∧
        instruction.opcode.isMarker = false := by
  rw [sequence_eq, List.mem_flatMap]
  constructor
  · rintro ⟨⟨block, position⟩, hblock, hplace⟩
    obtain ⟨rfl, hfound, hmarker⟩ := mem_placesOf.mp hplace
    exact ⟨block, List.mem_zipIdx_iff_getElem?.mp hblock, hfound, hmarker⟩
  · rintro ⟨block, hblock, hfound, hmarker⟩
    exact ⟨(block, location.block), List.mem_zipIdx_iff_getElem?.mpr hblock,
      mem_placesOf.mpr ⟨rfl, hfound, hmarker⟩⟩

/-- The sequence is in layout order. -/
theorem pairwise_sequence (script : CompiledScript) :
    script.sequence.Pairwise fun first second => first.1.Before second.1 := by
  rw [sequence_eq, List.pairwise_flatMap]
  constructor
  · rintro ⟨block, position⟩ -
    rw [placesOf, List.pairwise_map]
    exact ((pairwise_zipIdx block.instructions 0).filter _).imp fun hlt => .inr ⟨rfl, hlt⟩
  · refine (pairwise_zipIdx script.blocks 0).imp fun {first second} hlt => ?_
    rintro ⟨location, instruction⟩ hfirst ⟨other, instruction'⟩ hsecond
    refine .inl ?_
    change location.block < other.block
    rw [(mem_placesOf.mp hfirst).1, (mem_placesOf.mp hsecond).1]
    exact hlt

/-- No two entries of the sequence have the same place. -/
theorem nodup_locations (script : CompiledScript) : (script.sequence.map Prod.fst).Nodup := by
  rw [List.Nodup, List.pairwise_map]
  refine script.pairwise_sequence.imp fun {first second} hbefore heq => ?_
  rw [heq] at hbefore
  rcases hbefore with hlt | ⟨-, hlt⟩
  · exact Nat.lt_irrefl _ hlt
  · exact Nat.lt_irrefl _ hlt

/-- A place is found in the sequence exactly where its instruction stands. -/
theorem findIdx?_location_eq_some_iff {location : Location} {position : Nat} :
    script.sequence.findIdx? (fun place => decide (place.1 = location)) = some position ↔
      ∃ instruction, script.sequence[position]? = some (location, instruction) := by
  rw [List.findIdx?_eq_some_iff_getElem]
  constructor
  · rintro ⟨hlt, hplace, -⟩
    refine ⟨(script.sequence.get ⟨position, hlt⟩).2, ?_⟩
    rw [List.getElem?_eq_getElem hlt, ← of_decide_eq_true hplace]
    rfl
  · rintro ⟨instruction, hfound⟩
    obtain ⟨hlt, hplace⟩ := List.getElem?_eq_some_iff.mp hfound
    refine ⟨hlt, decide_eq_true (congrArg Prod.fst hplace), fun earlier hless => ?_⟩
    -- an earlier instruction stands at another place
    have hbefore := List.pairwise_iff_getElem.mp script.nodup_locations earlier position
      (by rw [List.length_map]; omega) (by rw [List.length_map]; omega) hless
    rw [List.getElem_map, List.getElem_map, hplace] at hbefore
    simpa using hbefore

/-- Passing the blocks forth and back finds how many real instructions stand before a block, unless
none stands in it or after it. -/
private theorem getElem?_fillStarts_ownStarts (before : Nat) (blocks : List Block) (block : Nat) :
    (fillStarts (ownStarts before blocks))[block]?.join =
      if ((blocks.take block).flatMap Block.real).length < (blocks.flatMap Block.real).length then
        some (before + ((blocks.take block).flatMap Block.real).length)
      else none := by
  induction blocks generalizing before block with
  | nil => simp [ownStarts, fillStarts]
  | cons first rest ih =>
    rw [ownStarts, fillStarts]
    cases block with
    | zero =>
      have hrest := ih (before + first.real.length) 0
      rw [← List.head?_eq_getElem?] at hrest
      simp only [List.getElem?_cons_zero, Option.join_some, hrest]
      cases hreal : first.real with
      | nil => simp [hreal]
      | cons instruction others => simp [hreal]
    | succ block =>
      simp only [List.getElem?_cons_succ, ih, List.take_succ_cons, List.flatMap_cons,
        List.length_append, Nat.add_lt_add_iff_left, Nat.add_assoc]

/-- A block starts behind all real instructions of the blocks before it, unless none stands in it or
after it. -/
theorem blockStart?_eq (block : Nat) :
    script.blockStart? block =
      if ((script.blocks.take block).flatMap Block.real).length < script.sequence.length then
        some ((script.blocks.take block).flatMap Block.real).length
      else none := by
  have hlength : script.sequence.length = (script.blocks.flatMap Block.real).length := by
    rw [sequence_eq, ← map_snd_flatMap_placesOf _ 0, List.length_map]
  rw [blockStart?, getElem?_fillStarts_ownStarts, hlength, Nat.zero_add]

/-- The start of a block is the first position of an instruction in the block or a later one. -/
theorem blockStart?_eq_findIdx? {block : Nat} (h : block ≤ script.blocks.length) :
    script.blockStart? block =
      script.sequence.findIdx? fun place => decide (block ≤ place.1.block) := by
  have hzip : script.blocks.zipIdx =
      (script.blocks.take block).zipIdx ++ (script.blocks.drop block).zipIdx block := by
    have happend := @List.zipIdx_append _ (script.blocks.take block) (script.blocks.drop block) 0
    rwa [List.take_append_drop, List.length_take_of_le h, Nat.zero_add] at happend
  have hsplit : script.sequence = (script.blocks.take block).zipIdx.flatMap placesOf ++
      ((script.blocks.drop block).zipIdx block).flatMap placesOf := by
    rw [sequence_eq, hzip, List.flatMap_append]
  have hbefore : ((script.blocks.take block).zipIdx.flatMap placesOf).findIdx?
      (fun place => decide (block ≤ place.1.block)) = none := by
    rw [List.findIdx?_eq_none_iff]
    intro place hplace
    have hlt := (le_block_of_mem_placesOf hplace).2
    rw [List.length_take_of_le h, Nat.zero_add] at hlt
    simpa using hlt
  have hlength : ((script.blocks.take block).zipIdx.flatMap placesOf).length =
      ((script.blocks.take block).flatMap Block.real).length := by
    rw [← map_snd_flatMap_placesOf _ 0, List.length_map]
  rw [blockStart?_eq, hsplit, List.findIdx?_append, hbefore, Option.none_or, List.length_append,
    hlength]
  cases hafter : ((script.blocks.drop block).zipIdx block).flatMap placesOf with
  | nil => simp
  | cons place rest =>
    have hplace : block ≤ place.1.block :=
      (le_block_of_mem_placesOf (hafter ▸ List.mem_cons_self)).1
    simp [List.findIdx?_cons, hplace]

/-- The block that a label leads to is the last that bears it. -/
theorem blockIndex?_eq_some_iff {label : Label} {index : Nat} :
    script.blockIndex? label = some index ↔
      (script.blocks[index]?).map Block.label = some label ∧
        ∀ later, index < later → (script.blocks[later]?).map Block.label ≠ some label := by
  unfold blockIndex?
  generalize script.blocks = blocks
  induction blocks generalizing index with
  | nil => simp [lastIndexOf?]
  | cons block rest ih =>
    -- what is later than the first block stands in the rest, one position before
    have hlater (index : Nat) : (∀ later, index + 1 < later →
        ((block :: rest)[later]?).map Block.label ≠ some label) ↔
        ∀ later, index < later → (rest[later]?).map Block.label ≠ some label := by
      constructor
      · exact fun h later hlt => h (later + 1) (Nat.succ_lt_succ hlt)
      · intro h later hlt
        obtain ⟨later, rfl⟩ : ∃ earlier, later = earlier + 1 := ⟨later - 1, by omega⟩
        exact h later (Nat.lt_of_succ_lt_succ hlt)
    cases index with
    | succ index =>
      rw [hlater, List.getElem?_cons_succ, ← ih, lastIndexOf?]
      cases lastIndexOf? label rest with
      | some found => simp
      | none =>
        simp only [reduceCtorEq, iff_false]
        split <;> simp
    | zero =>
      have hrest : lastIndexOf? label rest = none ↔
          ∀ later, 0 < later → ((block :: rest)[later]?).map Block.label ≠ some label := by
        rw [lastIndexOf?_eq_none_iff]
        constructor
        · intro h later hlt
          obtain ⟨later, rfl⟩ : ∃ earlier, later = earlier + 1 := ⟨later - 1, by omega⟩
          rw [List.getElem?_cons_succ]
          cases hfound : rest[later]? with
          | none => simp
          | some found => simpa using h found (List.mem_of_getElem? hfound)
        · intro h other hother hlabel
          obtain ⟨later, hfound⟩ := List.mem_iff_getElem?.mp hother
          refine h (later + 1) (Nat.succ_pos later) ?_
          rw [List.getElem?_cons_succ, hfound, Option.map_some, hlabel]
      rw [← hrest, lastIndexOf?]
      cases lastIndexOf? label rest with
      | some found => simp
      | none => simp

end CompiledScript

end ScriptBackend

import ScriptBackend.Proofs.Emitter.Items
import ScriptBackend.Proofs.Flow.Edges

/-!
# Places of items

The sequence of a script can be read off its items from top to bottom. A label opens the next block,
and an instruction takes the next index of the open block; a marker takes an index as well, but is
left out. So instructions that follow each other in the items without a label or a marker between
them stand side by side in the sequence, all in one block.
-/

namespace ScriptBackend

/-- The instructions among items that are no markers. -/
def realCode (items : List Item) : List Instruction :=
  (codeOf items).filter fun instruction => !instruction.opcode.isMarker

section Views

variable (items others : List Item) (label : Label)

@[simp] theorem realCode_nil : realCode [] = [] := rfl

@[simp] theorem realCode_bind_cons : realCode (.bind label :: items) = realCode items := rfl

@[simp] theorem realCode_append :
    realCode (items ++ others) = realCode items ++ realCode others := by
  simp [realCode]

/-- Instructions without markers among them are kept as they are. -/
theorem realCode_map_code {instructions : List Instruction}
    (h : ∀ instruction ∈ instructions, instruction.opcode.isMarker = false) :
    realCode (instructions.map .code) = instructions := by
  rw [realCode, codeOf_map_code, List.filter_eq_self]
  simpa using h

end Views

/-- The instructions of items with their places, markers left out, where some blocks were opened
before and the open one has some instructions. -/
def placesFrom : Nat → Nat → List Item → List (Location × Instruction)
  | _, _, [] => []
  | opened, _, .bind _ :: rest => placesFrom (opened + 1) 0 rest
  | opened, index, .code instruction :: rest =>
    if instruction.opcode.isMarker then placesFrom opened (index + 1) rest
    else (⟨opened - 1, index⟩, instruction) :: placesFrom opened (index + 1) rest

/-- Every instruction that is no marker has a place. -/
theorem map_snd_placesFrom (opened index : Nat) (items : List Item) :
    (placesFrom opened index items).map Prod.snd = realCode items := by
  induction items generalizing opened index with
  | nil => rfl
  | cons item rest ih =>
    cases item with
    | bind label =>
      rw [placesFrom, ih, realCode_bind_cons]
    | code instruction =>
      rw [placesFrom]
      split
      · next hmarker =>
        simpa [realCode, hmarker] using ih opened (index + 1)
      · next hmarker =>
        simpa [realCode, hmarker] using ih opened (index + 1)

/-- The places of items after others begin where these end. -/
theorem exists_placesFrom_append (opened index : Nat) (before : List Item) :
    ∃ opened' index', ∀ rest, placesFrom opened index (before ++ rest) =
      placesFrom opened index before ++ placesFrom opened' index' rest := by
  induction before generalizing opened index with
  | nil => exact ⟨opened, index, fun _ => rfl⟩
  | cons item before ih =>
    cases item with
    | bind label => exact ih (opened + 1) 0
    | code instruction =>
      obtain ⟨opened', index', hrest⟩ := ih opened (index + 1)
      refine ⟨opened', index', fun rest => ?_⟩
      rw [List.cons_append, placesFrom, placesFrom]
      split
      · exact hrest rest
      · rw [hrest, List.cons_append]

/-- Instructions in a row take places in a row in the open block. -/
theorem placesFrom_map_code_append (opened index : Nat) (instructions : List Instruction)
    (rest : List Item) :
    placesFrom opened index (instructions.map .code ++ rest) =
      ((instructions.zipIdx index).filter fun entry => !entry.1.opcode.isMarker).map
          (fun entry => (⟨opened - 1, entry.2⟩, entry.1)) ++
        placesFrom opened (index + instructions.length) rest := by
  induction instructions generalizing index with
  | nil => rfl
  | cons instruction instructions ih =>
    have hindex : index + (instruction :: instructions).length =
        index + 1 + instructions.length := by
      rw [List.length_cons]
      omega
    rw [List.map_cons, List.cons_append, placesFrom, ih, hindex, List.zipIdx_cons]
    split
    · next hmarker =>
      simp [hmarker]
    · next hmarker =>
      simp [hmarker]

namespace CompiledScript

variable {script : CompiledScript}

/-- The sequence of a script has the instructions of its items at their places. -/
theorem sequence_eq_placesFrom (script : CompiledScript) :
    script.sequence = placesFrom 0 0 script.items := by
  have hblocks (blocks : List Block) (opened index : Nat) :
      (blocks.zipIdx opened).flatMap placesOf = placesFrom opened index (itemsOf blocks) := by
    induction blocks generalizing opened index with
    | nil => rfl
    | cons block rest ih =>
      rw [itemsOf_cons, List.cons_append, placesFrom, placesFrom_map_code_append, ← ih,
        List.zipIdx_cons, List.flatMap_cons, Nat.add_sub_cancel, placesOf]
  rw [sequence_eq]
  exact hblocks script.blocks 0 0

/-- The sequence of a script lists the instructions of its items that are no markers. -/
theorem map_snd_sequence (script : CompiledScript) :
    script.sequence.map Prod.snd = realCode script.items := by
  rw [sequence_eq_placesFrom, map_snd_placesFrom]

/-- Instructions that follow each other in the items of a script, with no marker among them, follow
each other in its sequence and stand in one block. -/
theorem exists_block_of_items {before after : List Item} {run : List Instruction}
    (hitems : script.items = before ++ (run.map .code ++ after))
    (hreal : ∀ instruction ∈ run, instruction.opcode.isMarker = false) :
    ∃ block start, ∀ index instruction, run[index]? = some instruction →
      script.sequence[(realCode before).length + index]? =
        some (⟨block, start + index⟩, instruction) := by
  obtain ⟨opened, start, hplaces⟩ := exists_placesFrom_append 0 0 before
  have hkept : ((run.zipIdx start).filter fun entry => !entry.1.opcode.isMarker) =
      run.zipIdx start := by
    rw [List.filter_eq_self]
    intro entry hentry
    simpa using hreal entry.1 (List.fst_mem_of_mem_zipIdx hentry)
  have hlength : (placesFrom 0 0 before).length = (realCode before).length := by
    rw [← map_snd_placesFrom 0 0 before, List.length_map]
  refine ⟨opened - 1, start, fun index instruction hfound => ?_⟩
  obtain ⟨hlt, rfl⟩ := List.getElem?_eq_some_iff.mp hfound
  rw [sequence_eq_placesFrom, hitems, hplaces, placesFrom_map_code_append, hkept, ← hlength,
    List.getElem?_append_right (Nat.le_add_right ..), Nat.add_sub_cancel_left,
    List.getElem?_append_left (by simpa using hlt)]
  simp [hlt]

/-- The last item of a script, if it is an instruction, stands in the last block. -/
private theorem exists_mem_sequence_last {before : List Item} {last : Instruction}
    (hitems : script.items = before ++ [.code last]) (hreal : last.opcode.isMarker = false) :
    ∃ index, (⟨script.blocks.length - 1, index⟩, last) ∈ script.sequence := by
  have hends := congrArg List.getLast? hitems
  rw [List.getLast?_concat] at hends
  rcases List.eq_nil_or_concat script.blocks with hnil | ⟨blocks, final, hblocks⟩
  · simp [items, hnil] at hends
  · rcases List.eq_nil_or_concat final.instructions with hnone | ⟨instructions, found, hfinal⟩
    · simp [items, hblocks, itemsOf, Block.items, hnone] at hends
    · refine ⟨instructions.length, mem_sequence.mpr ⟨final, ?_, ?_, hreal⟩⟩
      · simp [hblocks]
      · have hlast : found = last := by
          simpa [items, hblocks, itemsOf, Block.items, hfinal, List.getLast?_cons] using hends
        simp [hfinal, hlast]

/-- A label that is bound in a script whose last item is an instruction lands. -/
theorem exists_landing? {before : List Item} {last : Instruction} {label : Label}
    (hitems : script.items = before ++ [.code last]) (hreal : last.opcode.isMarker = false)
    (hlabel : label ∈ boundLabels script.items) :
    ∃ target, script.landing? label = some target := by
  obtain ⟨block, hblock⟩ : ∃ block, script.blockIndex? label = some block := by
    obtain ⟨offset, hoffset⟩ := exists_offset?_iff.mpr hlabel
    obtain ⟨block, hblock, -⟩ := Option.map_eq_some_iff.mp hoffset
    exact ⟨block, hblock⟩
  obtain ⟨found, hfound, -⟩ := label_of_lastIndexOf? hblock
  have hlt := (List.getElem?_eq_some_iff.mp hfound).1
  obtain ⟨index, hplace⟩ := exists_mem_sequence_last hitems hreal
  rw [landing?, hblock, Option.bind_some]
  cases hfind : script.sequence.findIdx? fun place => decide (block ≤ place.1.block) with
  | some target => exact ⟨target, rfl⟩
  | none =>
    have hbefore := List.findIdx?_eq_none_iff.mp hfind _ hplace
    simp only [decide_eq_false_iff_not] at hbefore
    omega

end CompiledScript

end ScriptBackend

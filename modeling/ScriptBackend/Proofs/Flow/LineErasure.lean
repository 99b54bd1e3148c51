import ScriptBackend.Proofs.Flow.Sequence

/-!
# Flow without line markers

A marker is no node of a flow graph, so a script and the script without its markers have graphs of
the same shape: the same instructions in the same order, the same links and the same errors. Only
the places differ that the nodes remember, because markers count there. Graphs are compared by
forgetting the places.
-/

namespace ScriptBackend

/-- The block without its line markers. -/
def Block.unmarked (block : Block) : Block := { block with instructions := block.real }

/-- The script without its line markers. -/
def CompiledScript.unmarked (script : CompiledScript) : CompiledScript :=
  { script with blocks := script.blocks.map Block.unmarked }

/-- Taking markers out leaves no marker. -/
theorem Block.isMarker_of_mem_unmarked {block : Block} {instruction : Instruction}
    (h : instruction ∈ block.unmarked.instructions) : instruction.opcode.isMarker = false := by
  simpa using (List.mem_filter.mp h).2

/-- The real instructions of a block are not touched. -/
@[simp] theorem Block.real_unmarked (block : Block) : block.unmarked.real = block.real := by
  change (block.instructions.filter _).filter _ = block.instructions.filter _
  rw [List.filter_filter]
  simp

/-- Blocks without their markers have the same real instructions. -/
private theorem flatMap_real_unmarked (blocks : List Block) :
    (blocks.map Block.unmarked).flatMap Block.real = blocks.flatMap Block.real := by
  rw [List.flatMap_map]
  simp only [Block.real_unmarked]

/-- A label leads to the same position with and without markers. -/
private theorem lastIndexOf?_unmarked (label : Label) (blocks : List Block) :
    lastIndexOf? label (blocks.map Block.unmarked) = lastIndexOf? label blocks := by
  induction blocks with
  | nil => rfl
  | cons block rest ih =>
    rw [List.map_cons, lastIndexOf?, lastIndexOf?, ih]
    rfl

namespace CompiledScript

variable (script : CompiledScript)

@[simp] theorem id_unmarked : script.unmarked.id = script.id := rfl

/-- A script has the same real instructions with and without markers. -/
private theorem map_snd_sequence_unmarked :
    script.unmarked.sequence.map Prod.snd = script.sequence.map Prod.snd := by
  rw [sequence_eq, sequence_eq, map_snd_flatMap_placesOf, map_snd_flatMap_placesOf]
  exact flatMap_real_unmarked script.blocks

/-- A block starts at the same position of the sequence with and without markers. -/
private theorem blockStart?_unmarked (block : Nat) :
    script.unmarked.blockStart? block = script.blockStart? block := by
  have hlength : script.unmarked.sequence.length = script.sequence.length := by
    rw [← List.length_map Prod.snd, map_snd_sequence_unmarked, List.length_map]
  have htake : (script.unmarked.blocks.take block).flatMap Block.real =
      (script.blocks.take block).flatMap Block.real := by
    rw [unmarked, ← List.map_take, flatMap_real_unmarked]
  rw [blockStart?_eq, blockStart?_eq, hlength, htake]

/-- A label leads to the same position of the sequence with and without markers. -/
private theorem resolve_unmarked : script.unmarked.resolve = script.resolve := by
  funext instruction label
  have hindex : script.unmarked.blockIndex? label = script.blockIndex? label :=
    lastIndexOf?_unmarked label script.blocks
  unfold resolve
  rw [hindex]
  cases script.blockIndex? label with
  | none => rfl
  | some block => exact congrArg Except.ok (script.blockStart?_unmarked block)

/-- An instruction has the same links with and without markers. -/
private theorem links_unmarked : script.unmarked.links = script.links := by
  funext contracts sequence position instruction
  have htable : script.unmarked.table? = script.table? := rfl
  unfold links branchLinks switchLinks
  rw [resolve_unmarked, htable]

end CompiledScript

/-- A node that has forgotten the place of its instruction. -/
def FlowNode.unplaced : FlowNode → FlowNode
  | .code _ instruction => .code ⟨0, 0⟩ instruction
  | .entry => .entry
  | .validated pointers => .validated pointers

namespace FlowGraph

/-- The graph with the places of instructions forgotten. -/
def unplaced (graph : FlowGraph) : FlowGraph :=
  { nodes := graph.nodes.map FlowNode.unplaced, edges := graph.edges }

@[simp] theorem size_unplaced (graph : FlowGraph) : graph.unplaced.size = graph.size :=
  List.length_map FlowNode.unplaced

/-- A link is added alike to a graph that has forgotten its places. -/
private theorem unplaced_addLink (graph : FlowGraph) (position : Nat) (link : Link) :
    (graph.addLink position link).unplaced = graph.unplaced.addLink position link := by
  unfold addLink
  cases link.via with
  | none => rfl
  | some pointers =>
    simp only [unplaced, Digraph.addEdge, Digraph.addNode, List.map_append, Digraph.size,
      List.length_map]
    rfl

/-- The links of a position are added alike to a graph that has forgotten its places. -/
private theorem unplaced_foldl_addLink (graph : FlowGraph) (position : Nat) (links : List Link) :
    (links.foldl (fun graph link => graph.addLink position link) graph).unplaced =
      links.foldl (fun graph link => graph.addLink position link) graph.unplaced := by
  induction links generalizing graph with
  | nil => rfl
  | cons link rest ih => rw [List.foldl_cons, ih, unplaced_addLink, List.foldl_cons]

/-- Links are added alike to a graph that has forgotten its places. -/
private theorem unplaced_addLinks (graph : FlowGraph) (links : List (List Link)) :
    (graph.addLinks links).unplaced = graph.unplaced.addLinks links := by
  unfold addLinks
  induction links.zipIdx generalizing graph with
  | nil => rfl
  | cons entry rest ih => rw [List.foldl_cons, ih, unplaced_foldl_addLink, List.foldl_cons]

/-- Without places the nodes of a sequence are told by its instructions. -/
private theorem unplaced_ofSequence {first second : List (Location × Instruction)}
    (h : first.map Prod.snd = second.map Prod.snd) :
    (ofSequence first).unplaced = (ofSequence second).unplaced := by
  have hnodes : ∀ sequence : List (Location × Instruction),
      (ofSequence sequence).unplaced.nodes =
        .entry :: (sequence.map Prod.snd).map (FlowNode.code ⟨0, 0⟩) := by
    intro sequence
    simp [ofSequence, unplaced, FlowNode.unplaced]
  have hempty : first.isEmpty = second.isEmpty := by
    have hmap := congrArg List.isEmpty h
    simpa only [List.isEmpty_map] using hmap
  have hedges : (ofSequence first).edges = (ofSequence second).edges := by
    unfold ofSequence
    rw [hempty]
  have hsame : (ofSequence first).unplaced.nodes = (ofSequence second).unplaced.nodes := by
    rw [hnodes, hnodes, h]
  exact congrArg₂ Digraph.mk hsame hedges

/-- Graphs that differ in places only, whatever was computed before, stay so after it. -/
private theorem map_unplaced_bind {α : Type} {outcome : Except FlowError α}
    {first second : α → FlowGraph} (h : ∀ value, (first value).unplaced = (second value).unplaced) :
    (outcome >>= fun value => pure (first value)).map unplaced =
      (outcome >>= fun value => pure (second value)).map unplaced := by
  cases outcome with
  | error error => rfl
  | ok value => exact congrArg Except.ok (h value)

/-- With and without markers a script has the same graph but for places, or the same error. -/
theorem unplaced_build_unmarked (script : CompiledScript) (contracts : Contracts) :
    (build script.unmarked contracts).map unplaced = (build script contracts).map unplaced := by
  have hsequence := script.map_snd_sequence_unmarked
  unfold build
  rw [hsequence, script.links_unmarked]
  refine map_unplaced_bind fun links => ?_
  rw [unplaced_addLinks, unplaced_addLinks, unplaced_ofSequence hsequence]

end FlowGraph

end ScriptBackend

import ScriptBackend.Proofs.Flow.Contraction

/-!
# Flow graphs as step relations

The flow graph of any script, whatever its labels, blocks and markers, is the step relation of its
flat program: the entry is node zero, the real instructions are the nodes after it in layout order
and are found by their locations, the other nodes are outcomes with one edge in and one conditional
edge out, and with these contracted the edges are the steps.
-/

namespace ScriptBackend

namespace FlowGraph

/-- Whether a graph is the step relation of the flat program of a script. -/
structure Shows (graph : FlowGraph) (script : CompiledScript) : Prop where
  /-- The nodes are the entry, the real instructions in layout order, and outcomes. -/
  nodes_eq : ∃ outcomes : List PointerSet, graph.nodes = .entry ::
    (script.sequence.map (fun place => .code place.1 place.2) ++ outcomes.map .validated)
  /-- Exactly the locations of real instructions have nodes, those of the instructions. -/
  nodeAt?_iff : ∀ location node, graph.nodeAt? location = some node ↔
    ∃ position instruction, script.sequence[position]? = some (location, instruction) ∧
      node = position + 1
  /-- Every outcome has one edge in and one edge out, which is conditional. -/
  hasPassages : graph.HasPassages
  /-- With the outcomes contracted the edges are the steps. -/
  contracted_eq : graph.contracted = script.steps

variable {script : CompiledScript} {contracts : Contracts}

/-- The links of instructions that are numbered from a start have the edges of the steps. -/
private theorem flatMap_linkEdges {places : List (Location × Instruction)} {start : Nat}
    {links : List (List Link)}
    (h : List.Forall₂ (fun place links => script.links contracts (script.sequence.map Prod.snd)
      place.2 place.1 = .ok links) ((places.map Prod.snd).zipIdx start) links) :
    ((links.zipIdx start).flatMap fun (links, position) => linkEdges position links) =
      (places.zipIdx start).flatMap fun (place, position) =>
        (script.successors position place.2).map fun (target, kind) =>
          (⟨position + 1, target + 1, kind⟩ : Edge FlowEdge) := by
  induction places generalizing start links with
  | nil =>
    cases h
    rfl
  | cons place rest ih =>
    rw [List.map_cons, List.zipIdx_cons, List.forall₂_cons_left_iff] at h
    obtain ⟨first, others, hfirst, hothers, rfl⟩ := h
    have hsuccessors : first.map (fun link => (link.target, link.kind)) =
        script.successors start place.2 := CompiledScript.map_target_links hfirst
    rw [List.zipIdx_cons, List.zipIdx_cons, List.flatMap_cons, List.flatMap_cons, ih hothers]
    dsimp only
    rw [← hsuccessors, List.map_map]
    rfl

/-- The links of instructions lead from instructions to instructions. -/
private theorem bounds_of_mem_zipIdx_links {links : List (List Link)}
    (h : List.Forall₂ (fun place links => script.links contracts (script.sequence.map Prod.snd)
      place.2 place.1 = .ok links) (script.sequence.map Prod.snd).zipIdx links)
    {found : List Link} {position : Nat} (hmem : (found, position) ∈ links.zipIdx) :
    position < script.sequence.length ∧ ∀ link ∈ found, link.target < script.sequence.length := by
  have hfound : links[position]? = some found := List.mem_zipIdx_iff_getElem?.mp hmem
  obtain ⟨hlt, rfl⟩ := List.getElem?_eq_some_iff.mp hfound
  obtain ⟨hlength, hlinks⟩ := List.forall₂_iff_get.mp h
  have hposition : position < (script.sequence.map Prod.snd).zipIdx.length := hlength ▸ hlt
  have hsuccessors := CompiledScript.map_target_links (hlinks position hposition hlt)
  rw [List.length_zipIdx, List.length_map] at hposition
  refine ⟨hposition, fun link hlink => ?_⟩
  have hmem : (link.target, link.kind) ∈
      (links.get ⟨position, hlt⟩).map fun link => (link.target, link.kind) :=
    List.mem_map_of_mem hlink
  rw [hsuccessors] at hmem
  exact CompiledScript.lt_of_mem_successors hmem

/-- The node at a location is that of the real instruction there. -/
private theorem nodeAt?_eq_some_iff {graph : FlowGraph} {outcomes : List PointerSet}
    (hnodes : graph.nodes = .entry ::
      (script.sequence.map (fun place => .code place.1 place.2) ++ outcomes.map .validated))
    {location : Location} {node : Nat} : graph.nodeAt? location = some node ↔
      ∃ position instruction, script.sequence[position]? = some (location, instruction) ∧
        node = position + 1 := by
  have houtcomes : (outcomes.map FlowNode.validated).findIdx?
      (fun node => decide (node.location? = some location)) = none := by
    rw [List.findIdx?_eq_none_iff]
    intro found hfound
    obtain ⟨pointers, -, rfl⟩ := List.mem_map.mp hfound
    rfl
  unfold nodeAt?
  rw [hnodes, List.findIdx?_cons, List.findIdx?_append, houtcomes, List.findIdx?_map]
  simp only [FlowNode.location?, Option.some.injEq, Function.comp_def, reduceCtorEq, decide_false,
    Bool.false_eq_true, if_false, Option.map_none, Option.or_none]
  rw [Option.map_eq_some_iff]
  simp only [CompiledScript.findIdx?_location_eq_some_iff]
  constructor
  · rintro ⟨position, ⟨instruction, hfound⟩, rfl⟩
    exact ⟨position, instruction, hfound, rfl⟩
  · rintro ⟨position, instruction, hfound, rfl⟩
    exact ⟨position, ⟨instruction, hfound⟩, rfl⟩

/-- The flow graph of a script contracts to its steps. -/
theorem contractsTo_build {graph : FlowGraph} (h : build script contracts = .ok graph) :
    graph.ContractsTo (script.sequence.length + 1) script.steps := by
  unfold build at h
  obtain ⟨links, hlinks, hgraph⟩ := andThen_eq_ok_iff.mp h
  cases hgraph
  have hforall := mapM_eq_ok_iff.mp hlinks
  rw [CompiledScript.steps, ← flatMap_linkEdges hforall]
  refine (contractsTo_ofSequence script.sequence).foldl_foldl_addLink links.zipIdx
    fun found position hmem => ?_
  obtain ⟨hposition, htargets⟩ := bounds_of_mem_zipIdx_links hforall hmem
  exact ⟨Nat.succ_lt_succ hposition, fun link hlink => Nat.succ_lt_succ (htargets link hlink)⟩

/-- The flow graph of every script is the step relation of its flat program: its real instructions
are those that are no markers, in layout order, and a label lands on the first of them at or after
the start of the last block that bears it. -/
theorem build_shows_steps {graph : FlowGraph} (h : build script contracts = .ok graph) :
    graph.Shows script ∧
      (∀ location instruction, (location, instruction) ∈ script.sequence ↔
        ∃ block, script.blocks[location.block]? = some block ∧
          block.instructions[location.index]? = some instruction ∧
          instruction.opcode.isMarker = false) ∧
      (script.sequence.Pairwise fun first second => first.1.Before second.1) ∧
      ∀ label target, script.landing? label = some target ↔
        ∃ block, (script.blocks[block]?).map Block.label = some label ∧
          (∀ later, block < later → (script.blocks[later]?).map Block.label ≠ some label) ∧
          (∃ place, script.sequence[target]? = some place ∧ block ≤ place.1.block) ∧
          ∀ earlier < target, ∀ place, script.sequence[earlier]? = some place →
            place.1.block < block := by
  unfold build at h
  obtain ⟨links, hlinks, hgraph⟩ := andThen_eq_ok_iff.mp h
  cases hgraph
  have hforall := mapM_eq_ok_iff.mp hlinks
  obtain ⟨outcomes, hnodes⟩ := addsOutcomes_addLinks (ofSequence script.sequence) links
  have hcontracts := (contractsTo_ofSequence script.sequence).foldl_foldl_addLink links.zipIdx
    fun found position hmem => by
      obtain ⟨hposition, htargets⟩ := bounds_of_mem_zipIdx_links hforall hmem
      exact ⟨Nat.succ_lt_succ hposition, fun link hlink => Nat.succ_lt_succ (htargets link hlink)⟩
  refine ⟨⟨⟨outcomes, hnodes⟩, fun location node => nodeAt?_eq_some_iff hnodes,
    hcontracts.hasPassages, ?_⟩, fun location instruction => CompiledScript.mem_sequence,
    script.pairwise_sequence, fun label target => CompiledScript.landing?_eq_some_iff⟩
  rw [CompiledScript.steps, ← flatMap_linkEdges hforall]
  exact hcontracts.contracted_eq

/-- A script that finds a player and, on success, goes past a block that bears the same label and an
empty block to a switch that leads back or past the end. -/
private def findThenChoose : CompiledScript where
  symbol := ⟨.proc, "hunt", [], []⟩
  blocks := [
    ⟨⟨"entry"⟩, [⟨.lineNumber, .line 1, none⟩, .onSymbol .command (.command ⟨"find", [], []⟩),
      .pushInt 1, .branchTo .branchEquals ⟨"found"⟩]⟩,
    ⟨⟨"found"⟩, [⟨.leave, .none, none⟩]⟩,
    ⟨⟨"found"⟩, [⟨.lineNumber, .line 2, none⟩]⟩,
    ⟨⟨"empty"⟩, []⟩,
    ⟨⟨"choose"⟩, [.pushInt 2, ⟨.switch, .table 0, none⟩]⟩,
    ⟨⟨"end"⟩, []⟩]
  tables := [⟨0, [⟨[.int 1], ⟨"entry"⟩⟩, ⟨[], ⟨"found"⟩⟩, ⟨[.int 2], ⟨"end"⟩⟩]⟩]

/-- The contract of a command that finds a player. -/
private def findContracts : Contracts :=
  ⟨[("find", { set := ⟨1⟩, conditional := true })]⟩

theorem build_shows_steps_findThenChoose :
    ∃ graph, build findThenChoose findContracts = .ok graph ∧ graph.Shows findThenChoose ∧
      findThenChoose.landing? ⟨"found"⟩ = some 4 := by
  have hbuilt : (build findThenChoose findContracts).isOk = true := by decide +kernel
  cases hgraph : build findThenChoose findContracts with
  | error error =>
    rw [hgraph] at hbuilt
    cases hbuilt
  | ok graph => exact ⟨graph, rfl, (build_shows_steps hgraph).1, by decide +kernel⟩

end FlowGraph

end ScriptBackend

import Mathlib.Data.List.GetD
import ScriptBackend.Proofs.Flow.Edges

/-!
# Contracting outcomes

An outcome on which pointers become valid is a node with one edge in and one edge out. To contract
it is to let the edge into it lead where the edge out of it leads. Each link that is added to a
graph adds one edge to the contracted graph, whether it passes through an outcome or not.
-/

namespace ScriptBackend

namespace Digraph

variable {ν κ : Type} (graph : Digraph ν κ)

@[simp] theorem size_addNode (node : ν) : (graph.addNode node).size = graph.size + 1 :=
  List.length_append

@[simp] theorem size_addEdge (source target : Nat) (kind : κ) :
    (graph.addEdge source target kind).size = graph.size := rfl

/-- A new edge is the first of those that leave its source. -/
theorem outgoing_addEdge (source target : Nat) (kind : κ) (node : Nat) :
    (graph.addEdge source target kind).outgoing node =
      (if source = node then [⟨source, target, kind⟩] else []) ++ graph.outgoing node := by
  unfold outgoing addEdge
  rw [List.filter_append, List.reverse_append, List.filter_singleton]
  split <;> simp_all

/-- A new edge is the first of those that enter its target. -/
theorem incoming_addEdge (source target : Nat) (kind : κ) (node : Nat) :
    (graph.addEdge source target kind).incoming node =
      (if target = node then [⟨source, target, kind⟩] else []) ++ graph.incoming node := by
  unfold incoming addEdge
  rw [List.filter_append, List.reverse_append, List.filter_singleton]
  split <;> simp_all

end Digraph

namespace FlowGraph

/-- Where a node leads when outcomes are passed over: an outcome to the target of its edge, any
other node to itself. -/
def through (graph : FlowGraph) (node : Nat) : Nat :=
  if isOutcome (graph.node node) then ((graph.outgoing node).head?.map Edge.target).getD node
  else node

/-- The edges of a graph with its outcomes contracted. -/
def contracted (graph : FlowGraph) : List (Edge FlowEdge) :=
  (graph.edges.filter fun edge => !isOutcome (graph.node edge.source)).map fun edge =>
    { edge with target := graph.through edge.target }

/-- Whether every outcome has one edge in and one edge out, which is conditional. -/
def HasPassages (graph : FlowGraph) : Prop :=
  ∀ node, isOutcome (graph.node node) = true → ∃ before after, graph.incoming node = [before] ∧
    graph.outgoing node = [after] ∧ after.kind = .conditional

/-- Whether a graph whose first nodes are no outcomes and whose other nodes are outcomes has the
given edges between its first nodes when the outcomes are contracted. -/
structure ContractsTo (graph : FlowGraph) (count : Nat) (edges : List (Edge FlowEdge)) : Prop where
  count_le : count ≤ graph.size
  isOutcome_iff : ∀ node < graph.size, isOutcome (graph.node node) = true ↔ count ≤ node
  bounds : ∀ edge ∈ graph.edges, edge.source < graph.size ∧ edge.target < graph.size
  hasPassages : graph.HasPassages
  contracted_eq : graph.contracted = edges

variable {graph : FlowGraph} {count : Nat} {edges : List (Edge FlowEdge)}

/-- A new node leaves the other nodes as they are. -/
theorem node_addNode_of_lt {index : Nat} (h : index < graph.size) (node : FlowNode) :
    FlowGraph.node (graph.addNode node) index = graph.node index :=
  List.getD_append _ _ _ _ h

/-- A new node stands at the position that was free. -/
theorem node_addNode_size (graph : FlowGraph) (node : FlowNode) :
    FlowGraph.node (graph.addNode node) graph.size = node := by
  change (graph.nodes ++ [node]).getD graph.nodes.length .entry = node
  rw [List.getD_append_right _ _ _ _ (Nat.le_refl _), Nat.sub_self]
  rfl

/-- An outcome is a node, and none of the first. -/
private theorem ContractsTo.bounds_of_isOutcome (h : graph.ContractsTo count edges) {node : Nat}
    (houtcome : isOutcome (graph.node node) = true) : count ≤ node ∧ node < graph.size := by
  rcases Nat.lt_or_ge node graph.size with hlt | hge
  · exact ⟨(h.isOutcome_iff node hlt).mp houtcome, hlt⟩
  · -- past the last node there is only the default, the entry
    rw [FlowGraph.node, List.getD_eq_default _ _ hge] at houtcome
    cases houtcome

/-- A first node is no outcome. -/
private theorem ContractsTo.isOutcome_eq_false (h : graph.ContractsTo count edges) {node : Nat}
    (hlt : node < count) : isOutcome (graph.node node) = false := by
  rw [Bool.eq_false_iff]
  intro houtcome
  have hle := (h.bounds_of_isOutcome houtcome).1
  omega

/-- No edge touches a node that is not there. -/
private theorem ContractsTo.fresh (h : graph.ContractsTo count edges) :
    graph.incoming graph.size = [] ∧ graph.outgoing graph.size = [] := by
  constructor
  · refine List.reverse_eq_nil_iff.mpr (List.filter_eq_nil_iff.mpr fun edge hedge => ?_)
    have hlt := (h.bounds edge hedge).2
    simp only [decide_eq_true_eq]
    omega
  · refine List.reverse_eq_nil_iff.mpr (List.filter_eq_nil_iff.mpr fun edge hedge => ?_)
    have hlt := (h.bounds edge hedge).1
    simp only [decide_eq_true_eq]
    omega

/-- A larger graph that leaves the nodes and the edges out of outcomes as they are contracts the old
edges as before. -/
private theorem contracted_kept (larger : FlowGraph) (h : graph.ContractsTo count edges)
    (hnode : ∀ node < graph.size, larger.node node = graph.node node)
    (hout : ∀ node < graph.size, isOutcome (graph.node node) = true →
      larger.outgoing node = graph.outgoing node) :
    ((graph.edges.filter fun edge => !isOutcome (larger.node edge.source)).map fun edge =>
      { edge with target := larger.through edge.target }) = edges := by
  have hthrough (node : Nat) (hlt : node < graph.size) :
      larger.through node = graph.through node := by
    unfold through
    rw [hnode node hlt]
    split
    · next houtcome => rw [hout node hlt houtcome]
    · rfl
  have hfilter : (graph.edges.filter fun edge => !isOutcome (larger.node edge.source)) =
      graph.edges.filter fun edge => !isOutcome (graph.node edge.source) :=
    List.filter_congr fun edge hedge => by rw [hnode _ (h.bounds edge hedge).1]
  rw [hfilter, ← h.contracted_eq, contracted]
  refine List.map_congr_left fun edge hedge => ?_
  rw [hthrough _ (h.bounds edge (List.mem_filter.mp hedge).1).2]

/-- An edge between first nodes is an edge of the contracted graph. -/
private theorem ContractsTo.addEdge (h : graph.ContractsTo count edges) {source target : Nat}
    (hsource : source < count) (htarget : target < count) (kind : FlowEdge) :
    ContractsTo (graph.addEdge source target kind) count (edges ++ [⟨source, target, kind⟩]) where
  count_le := h.count_le
  isOutcome_iff := h.isOutcome_iff
  bounds := by
    intro edge hedge
    have hle := h.count_le
    rcases List.mem_append.mp hedge with hedge | hedge
    · exact h.bounds edge hedge
    · rw [List.mem_singleton.mp hedge, Digraph.size_addEdge]
      exact ⟨Nat.lt_of_lt_of_le hsource hle, Nat.lt_of_lt_of_le htarget hle⟩
  hasPassages := by
    intro node houtcome
    have hle := (h.bounds_of_isOutcome houtcome).1
    have hsource' : source ≠ node := by omega
    have htarget' : target ≠ node := by omega
    rw [Digraph.incoming_addEdge, Digraph.outgoing_addEdge, if_neg hsource', if_neg htarget']
    exact h.hasPassages node houtcome
  contracted_eq := by
    have hkept := contracted_kept (graph.addEdge source target kind) h
      (fun _ _ => rfl) fun node _ houtcome => by
        have hle := (h.bounds_of_isOutcome houtcome).1
        have hsource' : source ≠ node := by omega
        rw [Digraph.outgoing_addEdge, if_neg hsource', List.nil_append]
    have hthrough : through (graph.addEdge source target kind) target = target :=
      if_neg (Bool.eq_false_iff.mp (h.isOutcome_eq_false htarget))
    have hnew : isOutcome (FlowGraph.node (graph.addEdge source target kind) source) = false :=
      h.isOutcome_eq_false hsource
    unfold contracted
    conv_lhs => arg 2; change List.filter _ (graph.edges ++ [⟨source, target, kind⟩])
    rw [List.filter_append, List.map_append, hkept, List.filter_singleton]
    simp only [hnew, Bool.not_false, cond_true, List.map_cons, List.map_nil, hthrough]

/-- The graph with a new outcome between two nodes. -/
private def addPassage (graph : FlowGraph) (source target : Nat) (kind : FlowEdge)
    (pointers : PointerSet) : FlowGraph :=
  ((graph.addNode (.validated pointers)).addEdge source graph.size kind).addEdge graph.size target
    .conditional

private theorem size_addPassage (graph : FlowGraph) (source target : Nat) (kind : FlowEdge)
    (pointers : PointerSet) :
    Digraph.size (graph.addPassage source target kind pointers) = graph.size + 1 :=
  graph.size_addNode _

private theorem outgoing_addPassage (graph : FlowGraph) (source target : Nat) (kind : FlowEdge)
    (pointers : PointerSet) (node : Nat) :
    Digraph.outgoing (graph.addPassage source target kind pointers) node =
      (if graph.size = node then [⟨graph.size, target, .conditional⟩] else []) ++
        ((if source = node then [⟨source, graph.size, kind⟩] else []) ++ graph.outgoing node) := by
  rw [addPassage, Digraph.outgoing_addEdge, Digraph.outgoing_addEdge]
  rfl

private theorem incoming_addPassage (graph : FlowGraph) (source target : Nat) (kind : FlowEdge)
    (pointers : PointerSet) (node : Nat) :
    Digraph.incoming (graph.addPassage source target kind pointers) node =
      (if target = node then [⟨graph.size, target, .conditional⟩] else []) ++
        ((if graph.size = node then [⟨source, graph.size, kind⟩] else []) ++
          graph.incoming node) := by
  rw [addPassage, Digraph.incoming_addEdge, Digraph.incoming_addEdge]
  rfl

/-- The new outcome has one edge in and one edge out, and the others keep theirs. -/
private theorem ContractsTo.hasPassages_addPassage (h : graph.ContractsTo count edges)
    {source target : Nat} (hsource : source < count) (htarget : target < count) (kind : FlowEdge)
    (pointers : PointerSet) : (graph.addPassage source target kind pointers).HasPassages := by
  intro node houtcome
  have hle := h.count_le
  rw [incoming_addPassage, outgoing_addPassage]
  rcases Nat.lt_trichotomy node graph.size with hold | rfl | hgt
  · have houtcome' : isOutcome (graph.node node) = true := by
      rwa [← node_addNode_of_lt hold (.validated pointers)]
    have hcount := (h.bounds_of_isOutcome houtcome').1
    have hs : source ≠ node := by omega
    have ht : target ≠ node := by omega
    have hn : ¬graph.size = node := by omega
    simp only [if_neg hs, if_neg ht, if_neg hn]
    exact h.hasPassages node houtcome'
  · have hs : source ≠ graph.size := by omega
    have ht : target ≠ graph.size := by omega
    simp only [if_neg hs, if_neg ht, if_pos, h.fresh.1, h.fresh.2]
    exact ⟨_, _, rfl, rfl, rfl⟩
  · have hsize := size_addPassage graph source target kind pointers
    rw [FlowGraph.node, List.getD_eq_default _ _ (by unfold Digraph.size at hsize hgt; omega)]
      at houtcome
    cases houtcome

/-- Of the two edges through the new outcome the first leads on to where the second leads. -/
private theorem ContractsTo.contracted_addPassage (h : graph.ContractsTo count edges)
    {source target : Nat} (hsource : source < count) (kind : FlowEdge) (pointers : PointerSet) :
    (graph.addPassage source target kind pointers).contracted =
      edges ++ [⟨source, target, kind⟩] := by
  have hle := h.count_le
  have hnew : (graph.addPassage source target kind pointers).node graph.size =
      .validated pointers := node_addNode_size graph _
  have hkept := contracted_kept (graph.addPassage source target kind pointers) h
    (fun node hlt => node_addNode_of_lt hlt _) fun node hlt houtcome => by
      have hcount := (h.bounds_of_isOutcome houtcome).1
      have hs : source ≠ node := by omega
      have hn : ¬graph.size = node := by omega
      rw [outgoing_addPassage, if_neg hs, if_neg hn]
      rfl
  have hthrough : (graph.addPassage source target kind pointers).through graph.size = target := by
    rw [through, hnew, outgoing_addPassage, if_pos rfl]
    rfl
  have hfirst : isOutcome ((graph.addPassage source target kind pointers).node source) = false :=
    (congrArg isOutcome (node_addNode_of_lt (by omega) _)).trans (h.isOutcome_eq_false hsource)
  have hsecond : isOutcome ((graph.addPassage source target kind pointers).node graph.size) =
      true := congrArg isOutcome hnew
  unfold contracted
  conv_lhs => arg 2; change List.filter _ ((graph.edges ++ [⟨source, graph.size, kind⟩]) ++
    [⟨graph.size, target, .conditional⟩])
  rw [List.filter_append, List.filter_append, List.map_append, List.map_append, hkept,
    List.filter_singleton, List.filter_singleton]
  simp only [hfirst, hsecond, Bool.not_false, Bool.not_true, cond_true, cond_false, List.map_cons,
    List.map_nil, hthrough, List.append_nil]

/-- Two edges between first nodes through a new outcome are one edge of the contracted graph. -/
private theorem ContractsTo.addPassage (h : graph.ContractsTo count edges) {source target : Nat}
    (hsource : source < count) (htarget : target < count) (kind : FlowEdge)
    (pointers : PointerSet) :
    (graph.addPassage source target kind pointers).ContractsTo count
      (edges ++ [⟨source, target, kind⟩]) where
  count_le := by
    rw [size_addPassage]
    exact Nat.le_succ_of_le h.count_le
  isOutcome_iff := by
    intro node hlt
    rw [size_addPassage] at hlt
    rcases Nat.lt_or_ge node graph.size with hold | hge
    · rw [← h.isOutcome_iff node hold, ← node_addNode_of_lt hold (.validated pointers)]
      rfl
    · obtain rfl : node = graph.size := by omega
      exact iff_of_true (congrArg isOutcome (node_addNode_size graph (.validated pointers)))
        h.count_le
  bounds := by
    intro edge hedge
    have hle := h.count_le
    rw [size_addPassage]
    rcases List.mem_append.mp hedge with hedge | hedge
    · rcases List.mem_append.mp hedge with hedge | hedge
      · have hbounds := h.bounds edge hedge
        omega
      · rw [List.mem_singleton.mp hedge]
        exact ⟨by dsimp only; omega, Nat.lt_succ_self _⟩
    · rw [List.mem_singleton.mp hedge]
      exact ⟨Nat.lt_succ_self _, by dsimp only; omega⟩
  hasPassages := h.hasPassages_addPassage hsource htarget kind pointers
  contracted_eq := h.contracted_addPassage hsource kind pointers

/-- A link adds the edge between its instructions to the contracted graph. -/
theorem ContractsTo.addLink (h : graph.ContractsTo count edges) {position : Nat} {link : Link}
    (hsource : position + 1 < count) (htarget : link.target + 1 < count) :
    (graph.addLink position link).ContractsTo count
      (edges ++ [⟨position + 1, link.target + 1, link.kind⟩]) := by
  unfold FlowGraph.addLink
  cases link.via with
  | none => exact h.addEdge hsource htarget link.kind
  | some pointers => exact h.addPassage hsource htarget link.kind pointers

/-- The edges of the links from a position. -/
def linkEdges (position : Nat) (links : List Link) : List (Edge FlowEdge) :=
  links.map fun link => ⟨position + 1, link.target + 1, link.kind⟩

/-- Links from one position add their edges to the contracted graph. -/
theorem ContractsTo.foldl_addLink (h : graph.ContractsTo count edges) {position : Nat}
    {links : List Link} (hsource : position + 1 < count)
    (htargets : ∀ link ∈ links, link.target + 1 < count) :
    (links.foldl (fun graph link => graph.addLink position link) graph).ContractsTo count
      (edges ++ linkEdges position links) := by
  induction links generalizing graph edges with
  | nil =>
    rw [linkEdges, List.map_nil, List.append_nil]
    exact h
  | cons link rest ih =>
    rw [List.forall_mem_cons] at htargets
    rw [List.foldl_cons, linkEdges, List.map_cons, List.append_cons]
    exact ih (h.addLink hsource htargets.1) htargets.2

/-- Links from one position after another add their edges to the contracted graph. -/
theorem ContractsTo.foldl_foldl_addLink (h : graph.ContractsTo count edges)
    (placed : List (List Link × Nat))
    (hplaced : ∀ links position, (links, position) ∈ placed → position + 1 < count ∧
      ∀ link ∈ links, link.target + 1 < count) :
    (placed.foldl (fun graph (links, position) =>
        links.foldl (fun graph link => graph.addLink position link) graph) graph).ContractsTo count
      (edges ++ placed.flatMap fun (links, position) => linkEdges position links) := by
  induction placed generalizing graph edges with
  | nil =>
    rw [List.flatMap_nil, List.append_nil]
    exact h
  | cons head rest ih =>
    obtain ⟨links, position⟩ := head
    obtain ⟨hsource, htargets⟩ := hplaced links position List.mem_cons_self
    rw [List.foldl_cons, List.flatMap_cons, ← List.append_assoc]
    exact ih (h.foldl_addLink hsource htargets) fun links position hmem =>
      hplaced links position (List.mem_cons_of_mem _ hmem)

/-- The graph of a sequence has no outcomes. -/
private theorem isOutcome_ofSequence (sequence : List (Location × Instruction)) (node : Nat) :
    isOutcome ((ofSequence sequence).node node) = false := by
  have hall : ∀ found ∈ (ofSequence sequence).nodes, isOutcome found = false := by
    intro found hfound
    rcases List.mem_cons.mp hfound with rfl | hfound
    · rfl
    · obtain ⟨place, -, rfl⟩ := List.mem_map.mp hfound
      rfl
  rcases Nat.lt_or_ge node (ofSequence sequence).nodes.length with hlt | hge
  · rw [FlowGraph.node, List.getD_eq_getElem _ _ hlt]
    exact hall _ (List.getElem_mem hlt)
  · rw [FlowGraph.node, List.getD_eq_default _ _ hge]
    rfl

/-- The graph of a sequence has an edge from the entry to the first instruction, if there is one. -/
theorem contractsTo_ofSequence (sequence : List (Location × Instruction)) :
    (ofSequence sequence).ContractsTo (sequence.length + 1)
      (if sequence.isEmpty then [] else [⟨0, 1, .entry⟩]) := by
  have hsize : Digraph.size (ofSequence sequence) = sequence.length + 1 := by
    simp [Digraph.size, ofSequence]
  refine ⟨Nat.le_of_eq hsize.symm, ?_, ?_, ?_, ?_⟩
  · intro node hlt
    rw [isOutcome_ofSequence]
    exact iff_of_false Bool.false_ne_true (by omega)
  · intro edge hedge
    rw [hsize]
    cases sequence with
    | nil => cases hedge
    | cons place rest =>
      rw [List.mem_singleton.mp hedge]
      exact ⟨Nat.succ_pos _, Nat.succ_lt_succ (Nat.succ_pos _)⟩
  · intro node houtcome
    rw [isOutcome_ofSequence] at houtcome
    cases houtcome
  · have hthrough (node : Nat) : (ofSequence sequence).through node = node := by
      rw [through, isOutcome_ofSequence]
      rfl
    simp only [contracted, isOutcome_ofSequence, hthrough, Bool.not_false, List.filter_true,
      List.map_id']
    rfl

/-- Whether a graph has the nodes of another one and outcomes after them. -/
def AddsOutcomes (graph larger : FlowGraph) : Prop :=
  ∃ outcomes : List PointerSet, larger.nodes = graph.nodes ++ outcomes.map .validated

/-- A link adds at most an outcome. -/
theorem AddsOutcomes.addLink {larger : FlowGraph} (h : graph.AddsOutcomes larger) (position : Nat)
    (link : Link) : graph.AddsOutcomes (larger.addLink position link) := by
  obtain ⟨outcomes, hnodes⟩ := h
  unfold FlowGraph.addLink
  cases link.via with
  | none => exact ⟨outcomes, hnodes⟩
  | some pointers =>
    refine ⟨outcomes ++ [pointers], ?_⟩
    rw [List.map_append, ← List.append_assoc, ← hnodes]
    rfl

/-- Links add no nodes but outcomes. -/
theorem addsOutcomes_addLinks (graph : FlowGraph) (links : List (List Link)) :
    graph.AddsOutcomes (graph.addLinks links) := by
  have hstart : graph.AddsOutcomes graph := ⟨[], by rw [List.map_nil, List.append_nil]⟩
  refine List.foldlRecOn (motive := graph.AddsOutcomes) _ _ hstart fun _ hlarger placed _ => ?_
  exact List.foldlRecOn (motive := graph.AddsOutcomes) _ _ hlarger fun _ hlarger link _ =>
    hlarger.addLink placed.2 link

/-- The nodes of a flow graph are the entry, the real instructions in layout order, and outcomes. -/
theorem exists_nodes_build {script : CompiledScript} {contracts : Contracts}
    (h : build script contracts = .ok graph) :
    ∃ outcomes : List PointerSet, graph.nodes = .entry ::
      (script.sequence.map (fun place => .code place.1 place.2) ++ outcomes.map .validated) := by
  unfold build at h
  obtain ⟨links, -, hgraph⟩ := andThen_eq_ok_iff.mp h
  cases hgraph
  exact addsOutcomes_addLinks (ofSequence script.sequence) links

end FlowGraph

end ScriptBackend

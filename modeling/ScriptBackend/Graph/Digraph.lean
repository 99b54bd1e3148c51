/-!
# Directed graphs

A graph is a list of node labels and a list of edges in the order in which they were added. Parallel
edges and loops are kept. The neighbours of a node are listed with the most recently added edge
first.
-/

namespace ScriptBackend

/-- An edge between two nodes, each given by its position. -/
structure Edge (κ : Type) where
  /-- Where the edge starts. -/
  source : Nat
  /-- Where the edge ends. -/
  target : Nat
  /-- What the edge stands for. -/
  kind : κ
  deriving DecidableEq, Repr

/-- A directed graph. -/
structure Digraph (ν κ : Type) where
  /-- What each node stands for. -/
  nodes : List ν := []
  /-- The edges, in the order in which they were added. -/
  edges : List (Edge κ) := []
  deriving DecidableEq, Repr

namespace Digraph

variable {ν κ : Type}

/-- The number of nodes, which is also the position that the next node gets. -/
def size (graph : Digraph ν κ) : Nat := graph.nodes.length

/-- The graph with one more node. -/
def addNode (graph : Digraph ν κ) (node : ν) : Digraph ν κ :=
  { graph with nodes := graph.nodes ++ [node] }

/-- The graph with one more edge. -/
def addEdge (graph : Digraph ν κ) (source target : Nat) (kind : κ) : Digraph ν κ :=
  { graph with edges := graph.edges ++ [⟨source, target, kind⟩] }

/-- The edges that leave a node, the latest first. -/
def outgoing (graph : Digraph ν κ) (node : Nat) : List (Edge κ) :=
  (graph.edges.filter fun edge => edge.source = node).reverse

/-- The edges that enter a node, the latest first. -/
def incoming (graph : Digraph ν κ) (node : Nat) : List (Edge κ) :=
  (graph.edges.filter fun edge => edge.target = node).reverse

/-- The nodes that edges into a node come from, once per edge. -/
def predecessors (graph : Digraph ν κ) (node : Nat) : List Nat :=
  (graph.incoming node).map Edge.source

/-- The nodes that edges start from, once per edge. -/
def sources (graph : Digraph ν κ) : List Nat := graph.edges.map Edge.source

/-- Whether an edge leads from one node to another. -/
def Adjacent (graph : Digraph ν κ) (source target : Nat) : Prop :=
  ∃ edge ∈ graph.edges, edge.source = source ∧ edge.target = target

/-- The predecessors of a node are the nodes with an edge to it. -/
theorem mem_predecessors {graph : Digraph ν κ} {source target : Nat} :
    source ∈ graph.predecessors target ↔ graph.Adjacent source target := by
  simp only [predecessors, incoming, Adjacent, List.mem_map, List.mem_reverse, List.mem_filter,
    decide_eq_true_eq]
  constructor
  · rintro ⟨edge, ⟨hmem, htarget⟩, hsource⟩
    exact ⟨edge, hmem, hsource, htarget⟩
  · rintro ⟨edge, hmem, hsource, htarget⟩
    exact ⟨edge, ⟨hmem, htarget⟩, hsource⟩

/-- Every predecessor is the source of an edge. -/
theorem predecessors_subset_sources (graph : Digraph ν κ) (node : Nat) :
    graph.predecessors node ⊆ graph.sources := by
  intro source hsource
  obtain ⟨edge, hmem, rfl, _⟩ := mem_predecessors.mp hsource
  exact List.mem_map_of_mem hmem

end Digraph

end ScriptBackend

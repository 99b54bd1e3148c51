import ScriptBackend.Graph.Digraph

/-!
# Backward search

The search walks edges backwards, breadth first, from a list of seeds to a node that is a target. A
barrier is tested like every other node but nothing is reached through it. The search notes for each
node that it reaches which node it was reached from, and for a seed the seed itself; a hit is
answered by following these notes. A node is queued at most once; the search ends because every
newly queued node uses up a source of an edge.
-/

namespace ScriptBackend

/-- A walk along edges: the node it starts at and the nodes after it, a seed last. -/
structure Trail where
  /-- Where the walk starts. -/
  head : Nat
  /-- The nodes after the first. -/
  rest : List Nat := []
  deriving DecidableEq, Repr

namespace Trail

/-- All nodes of the walk. -/
def nodes (trail : Trail) : List Nat := trail.head :: trail.rest

/-- The last node of the walk. -/
def last (trail : Trail) : Nat := trail.rest.getLastD trail.head

/-- The walk with a node put before its start. -/
def extend (trail : Trail) (node : Nat) : Trail := ⟨node, trail.nodes⟩

end Trail

/-- What a search did: the nodes it tested, in order, and the trail from the target it found. -/
structure SearchResult where
  /-- The nodes tested as targets, in order. -/
  tested : List Nat := []
  /-- The trail from the first target met. -/
  found : Option Trail := none
  deriving DecidableEq, Repr

namespace SearchResult

/-- The nodes tested as barriers, in order: all nodes tested but the one that was a target. -/
def asked (result : SearchResult) : List Nat :=
  if result.found.isSome then result.tested.dropLast else result.tested

/-- The result with a node tested before all others. -/
def after (node : Nat) (result : SearchResult) : SearchResult :=
  { result with tested := node :: result.tested }

end SearchResult

/-- The candidates that are reached for the first time, in order and once each. -/
def discover (reached : List Nat) : List Nat → List Nat
  | [] => []
  | node :: rest =>
    if node ∈ reached then discover reached rest else node :: discover (node :: reached) rest

/-- Discovered nodes were candidates that nothing had reached. -/
theorem mem_of_mem_discover {reached candidates : List Nat} {node : Nat}
    (h : node ∈ discover reached candidates) : node ∈ candidates ∧ node ∉ reached := by
  induction candidates generalizing reached with
  | nil => simp [discover] at h
  | cons first rest ih =>
    unfold discover at h
    split at h
    · exact ⟨List.mem_cons_of_mem _ (ih h).1, (ih h).2⟩
    · next hfirst =>
      rcases List.mem_cons.mp h with rfl | h
      · exact ⟨List.mem_cons_self, hfirst⟩
      · exact ⟨List.mem_cons_of_mem _ (ih h).1,
          fun hmem => (ih h).2 (List.mem_cons_of_mem _ hmem)⟩

/-- Every candidate was reached before or is discovered. -/
theorem mem_reached_or_mem_discover {reached candidates : List Nat} {node : Nat}
    (h : node ∈ candidates) : node ∈ reached ∨ node ∈ discover reached candidates := by
  induction candidates generalizing reached with
  | nil => cases h
  | cons first rest ih =>
    unfold discover
    rcases List.mem_cons.mp h with rfl | hrest
    · by_cases hnode : node ∈ reached
      · exact Or.inl hnode
      · rw [if_neg hnode]
        exact Or.inr List.mem_cons_self
    · split
      · exact ih hrest
      · next hfirst =>
        rcases @ih (first :: reached) hrest with hmem | hmem
        · rcases List.mem_cons.mp hmem with rfl | hmem
          · exact Or.inr List.mem_cons_self
          · exact Or.inl hmem
        · exact Or.inr (List.mem_cons_of_mem _ hmem)

/-- Reaching a node that is listed leaves fewer unreached entries of the list. -/
private theorem countP_cons_lt {reached sources : List Nat} {node : Nat} (hmem : node ∈ sources)
    (hnew : node ∉ reached) :
    sources.countP (fun source => source ∉ node :: reached) <
      sources.countP (fun source => source ∉ reached) := by
  have hle : ∀ list : List Nat, list.countP (fun source => source ∉ node :: reached) ≤
      list.countP (fun source => source ∉ reached) := fun list =>
    List.countP_mono_left fun source _ h => by
      simp only [decide_eq_true_eq, List.mem_cons, not_or] at h ⊢
      exact h.2
  induction sources with
  | nil => cases hmem
  | cons first rest ih =>
    simp only [List.countP_cons]
    by_cases hfirst : first = node
    · subst hfirst
      have hrest := hle rest
      simp only [List.mem_cons, true_or, not_true_eq_false, decide_false, Bool.false_eq_true,
        if_false, hnew, not_false_eq_true, decide_true, if_true] at hrest ⊢
      omega
    · have hrest := ih ((List.mem_cons.mp hmem).resolve_left (Ne.symm hfirst))
      simp only [List.mem_cons, hfirst, false_or] at hrest ⊢
      omega

/-- Every discovered node uses up an entry of the list that it was taken from. -/
theorem countP_discover_le (reached : List Nat) {candidates sources : List Nat}
    (h : candidates ⊆ sources) :
    sources.countP (fun source => source ∉ discover reached candidates ++ reached) +
        (discover reached candidates).length ≤
      sources.countP (fun source => source ∉ reached) := by
  induction candidates generalizing reached with
  | nil => exact Nat.le_refl _
  | cons first rest ih =>
    have hrest : rest ⊆ sources := fun _ hmem => h (List.mem_cons_of_mem _ hmem)
    unfold discover
    split
    · exact ih reached hrest
    · next hfirst =>
      have hstep := ih (first :: reached) hrest
      have hlt := countP_cons_lt (h List.mem_cons_self) hfirst
      have hsame : sources.countP
          (fun source => source ∉ (first :: discover (first :: reached) rest) ++ reached) =
          sources.countP
            (fun source => source ∉ discover (first :: reached) rest ++ first :: reached) := by
        apply List.countP_congr
        intro source _
        simp only [List.cons_append, List.mem_cons, List.mem_append, decide_eq_true_eq]
        constructor <;> intro hnot hor <;> apply hnot <;> rcases hor with ha | hb | hc
        · exact Or.inr (Or.inl ha)
        · exact Or.inl hb
        · exact Or.inr (Or.inr hc)
        · exact Or.inr (Or.inl ha)
        · exact Or.inl hb
        · exact Or.inr (Or.inr hc)
      rw [hsame, List.length_cons]
      omega

namespace Digraph

variable {ν κ : Type}

/-- The nodes for which it is noted where they were reached from. -/
def noted (next : List (Nat × Nat)) : List Nat := next.map Prod.fst

/-- Notes for more nodes are notes for those and the ones before. -/
@[simp] theorem noted_append (fresh : List Nat) (node : Nat) (next : List (Nat × Nat)) :
    noted (fresh.map (·, node) ++ next) = fresh ++ noted next := by
  simp [noted, Function.comp_def]

/-- The nodes after a node on the way to its seed: each is the one that the node before it was
reached from, and a seed was reached from itself. A way has no more steps than nodes were
reached. -/
def follow (next : List (Nat × Nat)) : Nat → Nat → List Nat
  | 0, _ => []
  | steps + 1, current =>
    match next.lookup current with
    | none => []
    | some after => if after = current then [] else after :: follow next steps after

/-- Test the queued nodes in order, queueing what is reached through those that are neither targets
nor barriers. -/
def sweep (graph : Digraph ν κ) (isTarget isBarrier : Nat → Bool) (next : List (Nat × Nat))
    (queue : List Nat) : SearchResult :=
  match queue with
  | [] => {}
  | node :: queue =>
    if isTarget node then { tested := [node], found := some ⟨node, follow next next.length node⟩ }
    else if isBarrier node then (graph.sweep isTarget isBarrier next queue).after node
    else
      let fresh := discover (noted next) (graph.predecessors node)
      (graph.sweep isTarget isBarrier (fresh.map (·, node) ++ next) (queue ++ fresh)).after node
termination_by graph.sources.countP (fun source => source ∉ noted next) + queue.length
decreasing_by
  · simp only [List.length_cons]
    omega
  · have hle := countP_discover_le (noted next) (graph.predecessors_subset_sources node)
    simp only [noted_append, List.length_cons, List.length_append]
    omega

/-- Search backwards from the seeds for a target. -/
def search (graph : Digraph ν κ) (seeds : List Nat) (isTarget isBarrier : Nat → Bool) :
    SearchResult :=
  let starts := discover [] seeds
  graph.sweep isTarget isBarrier (starts.map fun seed => (seed, seed)) starts

end Digraph

end ScriptBackend

import Mathlib.Data.List.Chain
import ScriptBackend.Proofs.Graph.Trails

/-!
# Routes of a backward search

A route is a walk that a search may follow: an edge leads from each node to the next, the last node
is a seed, and no node after the first is a barrier. A search finds a trail exactly when a route
starts at a target, and the trail that it finds is such a route. The queue only ever holds routes;
a search that finds nothing leaves a set of reached nodes that holds no target and that no further
node enters, so no target has a route into it.
-/

namespace ScriptBackend

/-- Whether a trail is a walk to a seed on which no node after the first is a barrier. -/
structure Trail.IsRoute {ν κ : Type} (trail : Trail) (graph : Digraph ν κ) (seeds : List Nat)
    (isBarrier : Nat → Bool) : Prop where
  /-- An edge leads from each node to the next. -/
  walk : trail.nodes.IsChain graph.Adjacent
  /-- The walk ends at a seed. -/
  ends : trail.last ∈ seeds
  /-- Nothing after the first node is a barrier. -/
  clear : ∀ node ∈ trail.rest, isBarrier node = false

namespace Trail

/-- A trail with a node put before its start ends where it ended. -/
@[simp] theorem last_extend (trail : Trail) (node : Nat) :
    (trail.extend node).last = trail.last := by
  obtain ⟨head, rest⟩ := trail
  cases rest with
  | nil => rfl
  | cons first rest => simp [extend, last, nodes, List.getLastD]

namespace IsRoute

variable {ν κ : Type} {graph : Digraph ν κ} {seeds : List Nat} {isBarrier : Nat → Bool}
  {trail : Trail}

/-- A seed alone is a route. -/
theorem seed {node : Nat} (h : node ∈ seeds) : IsRoute { head := node } graph seeds isBarrier :=
  ⟨List.isChain_singleton node, h, fun _ hmem => absurd hmem List.not_mem_nil⟩

/-- A route goes on backwards from a node that is no barrier. -/
theorem extend (h : trail.IsRoute graph seeds isBarrier) (hclear : isBarrier trail.head = false)
    {node : Nat} (hedge : graph.Adjacent node trail.head) :
    (trail.extend node).IsRoute graph seeds isBarrier where
  walk := List.isChain_cons_cons.mpr ⟨hedge, h.walk⟩
  ends := by
    rw [last_extend]
    exact h.ends
  clear := by
    intro other hother
    rcases List.mem_cons.mp hother with rfl | hrest
    · exact hclear
    · exact h.clear other hrest

/-- A route stays one with more seeds and fewer barriers. -/
theorem mono (h : trail.IsRoute graph seeds isBarrier) {others : List Nat} (hseeds : seeds ⊆ others)
    {isWall : Nat → Bool} (hwalls : ∀ node, isWall node = true → isBarrier node = true) :
    trail.IsRoute graph others isWall where
  walk := h.walk
  ends := hseeds h.ends
  clear node hnode := by
    have hclear := h.clear node hnode
    by_contra hwall
    rw [hwalls node (by simpa using hwall)] at hclear
    cases hclear

/-- A set that holds the seeds and is entered only through barriers holds the start of every
route. -/
theorem head_mem (h : trail.IsRoute graph seeds isBarrier) {closed : List Nat}
    (hseeds : seeds ⊆ closed)
    (hclosed : ∀ node ∈ closed, isBarrier node = true ∨ graph.predecessors node ⊆ closed) :
    trail.head ∈ closed := by
  obtain ⟨head, rest⟩ := trail
  induction rest generalizing head with
  | nil => exact hseeds h.ends
  | cons next rest ih =>
    obtain ⟨hedge, hwalk⟩ := List.isChain_cons_cons.mp h.walk
    have hnext : next ∈ closed := by
      refine ih next ⟨hwalk, ?_, fun node hnode => h.clear node (List.mem_cons_of_mem _ hnode)⟩
      have hends := h.ends
      rwa [← last_extend ⟨next, rest⟩ head]
    rcases hclosed next hnext with hbarrier | hentered
    · rw [h.clear next List.mem_cons_self] at hbarrier
      cases hbarrier
    · exact hentered (Digraph.mem_predecessors.mpr hedge)

end IsRoute

end Trail

namespace Digraph

variable {ν κ : Type} {graph : Digraph ν κ} {isTarget isBarrier : Nat → Bool} {seeds : List Nat}

/-- What a sweep finds from a queue of routes is a route from a target. -/
private theorem isRoute_of_found_sweepTrails {reached : List Nat} {queue : List Trail}
    {trail : Trail}
    (hqueue : ∀ queued ∈ queue, queued.IsRoute graph seeds isBarrier)
    (h : (graph.sweepTrails isTarget isBarrier reached queue).found = some trail) :
    trail.IsRoute graph seeds isBarrier ∧ isTarget trail.head = true := by
  fun_induction sweepTrails graph isTarget isBarrier reached queue with
  | case1 reached => cases h
  | case2 reached first queue htarget =>
    cases h
    exact ⟨hqueue _ List.mem_cons_self, htarget⟩
  | case3 reached first queue htarget hbarrier ih =>
    exact ih (fun queued hqueued => hqueue queued (List.mem_cons_of_mem _ hqueued)) h
  | case4 reached first queue htarget hbarrier fresh ih =>
    refine ih (fun queued hqueued => ?_) h
    rcases List.mem_append.mp hqueued with hold | hnew
    · exact hqueue queued (List.mem_cons_of_mem _ hold)
    · obtain ⟨node, hnode, rfl⟩ := List.mem_map.mp hnew
      have hedge := mem_predecessors.mp (mem_of_mem_discover hnode).1
      exact (hqueue first List.mem_cons_self).extend (by simpa using hbarrier) hedge

/-- Whether a node was tested to the end: it is no target, and all that leads to it was reached
unless it is a barrier. -/
private def Settled (graph : Digraph ν κ) (isTarget isBarrier : Nat → Bool) (reached : List Nat)
    (node : Nat) : Prop :=
  isTarget node = false ∧ (isBarrier node = true ∨ graph.predecessors node ⊆ reached)

/-- A sweep that finds nothing settles all that was reached: every reached node is queued or settled
before each test, so all are settled when the queue is empty. -/
private theorem exists_settled_of_sweepTrails {reached : List Nat} {queue : List Trail}
    (hreached : ∀ node ∈ reached, (∃ queued ∈ queue, queued.head = node) ∨
      Settled graph isTarget isBarrier reached node)
    (h : (graph.sweepTrails isTarget isBarrier reached queue).found = none) :
    ∃ closed, reached ⊆ closed ∧ ∀ node ∈ closed, Settled graph isTarget isBarrier closed node := by
  fun_induction sweepTrails graph isTarget isBarrier reached queue with
  | case1 reached =>
    refine ⟨reached, List.Subset.refl reached, fun node hnode => ?_⟩
    rcases hreached node hnode with ⟨queued, hqueued, -⟩ | hsettled
    · exact absurd hqueued List.not_mem_nil
    · exact hsettled
  | case2 reached first queue htarget => cases h
  | case3 reached first queue htarget hbarrier ih =>
    refine ih (fun node hnode => ?_) h
    rcases hreached node hnode with ⟨queued, hqueued, rfl⟩ | hsettled
    · rcases List.mem_cons.mp hqueued with rfl | hrest
      · exact .inr ⟨by simpa using htarget, .inl hbarrier⟩
      · exact .inl ⟨queued, hrest, rfl⟩
    · exact .inr hsettled
  | case4 reached first queue htarget hbarrier fresh ih =>
    have hgrown {node : Nat} (hsettled : Settled graph isTarget isBarrier reached node) :
        Settled graph isTarget isBarrier (fresh ++ reached) node :=
      ⟨hsettled.1, hsettled.2.imp_right fun hsubset _ hmem =>
        List.mem_append_right fresh (hsubset hmem)⟩
    have hfirst : Settled graph isTarget isBarrier (fresh ++ reached) first.head := by
      refine ⟨by simpa using htarget, .inr fun node hnode => ?_⟩
      rcases @mem_reached_or_mem_discover reached _ _ hnode with hold | hnew
      · exact List.mem_append_right fresh hold
      · exact List.mem_append_left reached hnew
    obtain ⟨closed, hsubset, hclosed⟩ := ih (fun node hnode => by
      rcases List.mem_append.mp hnode with hnew | hold
      · exact .inl ⟨first.extend node,
          List.mem_append_right queue (List.mem_map_of_mem hnew), rfl⟩
      · rcases hreached node hold with ⟨queued, hqueued, rfl⟩ | hsettled
        · rcases List.mem_cons.mp hqueued with rfl | hrest
          · exact .inr hfirst
          · exact .inl ⟨queued, List.mem_append_left _ hrest, rfl⟩
        · exact .inr (hgrown hsettled)) h
    exact ⟨closed, fun node hnode => hsubset (List.mem_append_right fresh hnode), hclosed⟩

/-- The trail that a search finds is a route from a target. -/
theorem isRoute_of_found {trail : Trail}
    (h : (graph.search seeds isTarget isBarrier).found = some trail) :
    trail.IsRoute graph seeds isBarrier ∧ isTarget trail.head = true := by
  rw [search_eq_sweepTrails] at h
  refine isRoute_of_found_sweepTrails (fun queued hqueued => ?_) h
  obtain ⟨node, hnode, rfl⟩ := List.mem_map.mp hqueued
  exact .seed (mem_of_mem_discover hnode).1

/-- A search finds a trail exactly when a route starts at a target. -/
theorem found_isSome_iff :
    (graph.search seeds isTarget isBarrier).found.isSome = true ↔
      ∃ trail : Trail, trail.IsRoute graph seeds isBarrier ∧ isTarget trail.head = true := by
  constructor
  · intro h
    obtain ⟨trail, htrail⟩ := Option.isSome_iff_exists.mp h
    exact ⟨trail, isRoute_of_found htrail⟩
  · rintro ⟨trail, hroute, htarget⟩
    by_contra hnone
    have hfound : (graph.search seeds isTarget isBarrier).found = none := by simpa using hnone
    rw [search_eq_sweepTrails] at hfound
    obtain ⟨closed, hsubset, hclosed⟩ := exists_settled_of_sweepTrails (fun node hnode =>
      .inl ⟨{ head := node }, List.mem_map_of_mem hnode, rfl⟩) hfound
    have hseeds : seeds ⊆ closed := by
      intro node hnode
      rcases @mem_reached_or_mem_discover [] _ _ hnode with hold | hnew
      · exact absurd hold List.not_mem_nil
      · exact hsubset hnew
    have hhead := hroute.head_mem hseeds fun node hnode => (hclosed node hnode).2
    rw [(hclosed _ hhead).1] at htarget
    cases htarget

end Digraph

end ScriptBackend

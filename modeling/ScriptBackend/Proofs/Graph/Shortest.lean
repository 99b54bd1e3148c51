import ScriptBackend.Proofs.Graph.Routes

/-!
# The search finds a shortest route

The queue of a backward search holds its trails in the order of their lengths, and no two of them
differ by more than one node. Whatever leads to a node that was tested, and is no barrier, was
reached by a trail with at most one node more. So before the first trail of the queue is tested, all
routes with fewer nodes start at nodes that were tested already, and none of these is a target. A
trail is put before a node only when the node is reached for the first time, so no trail meets a
node twice.
-/

namespace ScriptBackend

/-- The number of edges of a walk. -/
def Trail.length (trail : Trail) : Nat := trail.rest.length

namespace Digraph

variable {ν κ : Type} {graph : Digraph ν κ} {isTarget isBarrier : Nat → Bool} {seeds : List Nat}

/-- What holds between two tests of a search: some trails were tested, the queue is next, and the
nodes of both were reached. -/
structure Layered (graph : Digraph ν κ) (seeds : List Nat) (isTarget isBarrier : Nat → Bool)
    (reached : List Nat) (tested queue : List Trail) : Prop where
  /-- Every seed has a trail of its own. -/
  starts : ∀ seed ∈ seeds, { head := seed } ∈ tested ++ queue
  /-- Every node that was reached has a trail. -/
  covers : ∀ node ∈ reached, ∃ trail ∈ tested ++ queue, trail.head = node
  /-- No target was tested. -/
  missed : ∀ trail ∈ tested, isTarget trail.head = false
  /-- What leads to a node that was tested has a trail with at most one edge more. -/
  expanded : ∀ trail ∈ tested, isBarrier trail.head = false →
    ∀ node ∈ graph.predecessors trail.head,
      ∃ next ∈ tested ++ queue, next.head = node ∧ next.length ≤ trail.length + 1
  /-- What was tested is no longer than what is queued. -/
  behind : ∀ trail ∈ tested, ∀ queued ∈ queue, trail.length ≤ queued.length
  /-- The queue is in the order of length. -/
  sorted : queue.Pairwise fun first second => first.length ≤ second.length
  /-- Lengths in the queue differ by one at most. -/
  narrow : ∀ first ∈ queue, ∀ second ∈ queue, second.length ≤ first.length + 1
  /-- A queued trail meets no node twice, and only nodes that were reached. -/
  simple : ∀ queued ∈ queue, queued.nodes.Nodup ∧ queued.nodes ⊆ reached

namespace Layered

variable {reached : List Nat} {tested queue : List Trail} {first : Trail}

/-- No trail of the queue is shorter than its first. -/
private theorem length_first_le
    (h : Layered graph seeds isTarget isBarrier reached tested (first :: queue)) :
    ∀ queued ∈ first :: queue, first.length ≤ queued.length := by
  intro queued hqueued
  rcases List.mem_cons.mp hqueued with rfl | hrest
  · exact Nat.le_refl _
  · exact (List.pairwise_cons.mp h.sorted).1 queued hrest

/-- A trail that is shorter than the first of the queue was tested. -/
private theorem mem_tested_of_lt
    (h : Layered graph seeds isTarget isBarrier reached tested (first :: queue)) {trail : Trail}
    (hmem : trail ∈ tested ++ first :: queue) (hlt : trail.length < first.length) :
    trail ∈ tested := by
  rcases List.mem_append.mp hmem with htested | hqueued
  · exact htested
  · exact absurd (h.length_first_le trail hqueued) (Nat.not_le.mpr hlt)

/-- The start of a route that is shorter than the first of the queue was tested, by a trail that is
no longer than the route. -/
private theorem exists_tested
    (h : Layered graph seeds isTarget isBarrier reached tested (first :: queue)) {route : Trail}
    (hroute : route.IsRoute graph seeds isBarrier) (hlt : route.length < first.length) :
    ∃ trail ∈ tested, trail.head = route.head ∧ trail.length ≤ route.length := by
  obtain ⟨head, rest⟩ := route
  -- along the route from its seed to its start
  induction rest generalizing head with
  | nil => exact ⟨{ head }, h.mem_tested_of_lt (h.starts head hroute.ends) hlt, rfl, Nat.le_refl _⟩
  | cons next rest ih =>
    obtain ⟨hedge, hwalk⟩ := List.isChain_cons_cons.mp hroute.walk
    have hrest : (⟨next, rest⟩ : Trail).IsRoute graph seeds isBarrier :=
      ⟨hwalk, by rw [← Trail.last_extend ⟨next, rest⟩ head]; exact hroute.ends,
        fun node hnode => hroute.clear node (List.mem_cons_of_mem next hnode)⟩
    have hlonger : (⟨head, next :: rest⟩ : Trail).length = (⟨next, rest⟩ : Trail).length + 1 := rfl
    obtain ⟨trail, htested, hhead, hle⟩ := ih next hrest (by omega)
    have hclear : isBarrier trail.head = false :=
      hhead ▸ hroute.clear next List.mem_cons_self
    have hleads : head ∈ graph.predecessors trail.head := hhead ▸ mem_predecessors.mpr hedge
    obtain ⟨found, hfound, hsame, hnear⟩ := h.expanded trail htested hclear head hleads
    exact ⟨found, h.mem_tested_of_lt hfound (by omega), hsame, by omega⟩

/-- No route from a target is shorter than the first of the queue. -/
private theorem length_le_of_isRoute
    (h : Layered graph seeds isTarget isBarrier reached tested (first :: queue)) {route : Trail}
    (hroute : route.IsRoute graph seeds isBarrier) (htarget : isTarget route.head = true) :
    first.length ≤ route.length := by
  by_contra hlt
  obtain ⟨trail, htested, hhead, -⟩ := h.exists_tested hroute (Nat.not_le.mp hlt)
  have hmissed := h.missed trail htested
  rw [hhead, htarget] at hmissed
  cases hmissed

/-- No trail is more than one edge longer than the first of the queue. -/
private theorem length_le_succ
    (h : Layered graph seeds isTarget isBarrier reached tested (first :: queue)) {trail : Trail}
    (hmem : trail ∈ tested ++ first :: queue) : trail.length ≤ first.length + 1 := by
  rcases List.mem_append.mp hmem with htested | hqueued
  · exact Nat.le_succ_of_le (h.behind trail htested first List.mem_cons_self)
  · exact h.narrow first List.mem_cons_self trail hqueued

/-- What is queued after the first of the queue, or put before it, is as long or one edge
longer. -/
private theorem length_bounds
    (h : Layered graph seeds isTarget isBarrier reached tested (first :: queue))
    {fresh : List Nat} {queued : Trail} (hqueued : queued ∈ queue ++ fresh.map first.extend) :
    first.length ≤ queued.length ∧ queued.length ≤ first.length + 1 := by
  rcases List.mem_append.mp hqueued with hold | hadded
  · have hmem : queued ∈ first :: queue := List.mem_cons_of_mem first hold
    exact ⟨h.length_first_le queued hmem, h.length_le_succ (List.mem_append_right tested hmem)⟩
  · obtain ⟨node, -, rfl⟩ := List.mem_map.mp hadded
    exact ⟨Nat.le_succ _, Nat.le_refl _⟩

/-- A trail whose start is no target is tested, and the trails that it has to fresh nodes are
queued; unless the start is a barrier, all that leads to it is reached then. -/
private theorem step (h : Layered graph seeds isTarget isBarrier reached tested (first :: queue))
    (htarget : isTarget first.head = false) (fresh : List Nat)
    (hnew : ∀ node ∈ fresh, node ∉ reached)
    (hentered : isBarrier first.head = false →
      ∀ node ∈ graph.predecessors first.head, node ∈ reached ∨ node ∈ fresh) :
    Layered graph seeds isTarget isBarrier (fresh ++ reached) (first :: tested)
      (queue ++ fresh.map first.extend) := by
  have hkept {trail : Trail} (hmem : trail ∈ tested ++ first :: queue) :
      trail ∈ first :: tested ++ (queue ++ fresh.map first.extend) := by
    rw [← List.append_assoc]
    exact List.mem_append_left _ (List.perm_middle.mem_iff.mp hmem)
  have hadded {node : Nat} (hnode : node ∈ fresh) :
      first.extend node ∈ first :: tested ++ (queue ++ fresh.map first.extend) :=
    List.mem_append_right _ (List.mem_append_right _ (List.mem_map_of_mem hnode))
  constructor
  case starts => exact fun seed hseed => hkept (h.starts seed hseed)
  case covers =>
    intro node hnode
    rcases List.mem_append.mp hnode with hfresh | hold
    · exact ⟨first.extend node, hadded hfresh, rfl⟩
    · obtain ⟨trail, htrail, hhead⟩ := h.covers node hold
      exact ⟨trail, hkept htrail, hhead⟩
  case missed => exact List.forall_mem_cons.mpr ⟨htarget, h.missed⟩
  case expanded =>
    refine List.forall_mem_cons.mpr ⟨fun hclear node hnode => ?_,
      fun trail htrail hclear node hnode => ?_⟩
    · rcases hentered hclear node hnode with hold | hfresh
      · obtain ⟨trail, htrail, hhead⟩ := h.covers node hold
        exact ⟨trail, hkept htrail, hhead, h.length_le_succ htrail⟩
      · exact ⟨first.extend node, hadded hfresh, rfl, Nat.le_refl _⟩
    · obtain ⟨next, hnext, hfacts⟩ := h.expanded trail htrail hclear node hnode
      exact ⟨next, hkept hnext, hfacts⟩
  case behind =>
    refine List.forall_mem_cons.mpr ⟨fun queued hqueued => (h.length_bounds hqueued).1,
      fun trail htrail queued hqueued => ?_⟩
    exact (h.behind trail htrail first List.mem_cons_self).trans (h.length_bounds hqueued).1
  case sorted =>
    refine List.pairwise_append.mpr ⟨(List.pairwise_cons.mp h.sorted).2,
      List.pairwise_map.mpr (List.pairwise_of_forall fun _ _ => Nat.le_refl _), ?_⟩
    intro queued hqueued added hmem
    obtain ⟨node, -, rfl⟩ := List.mem_map.mp hmem
    exact h.length_le_succ (List.mem_append_right tested (List.mem_cons_of_mem first hqueued))
  case narrow =>
    intro one hone other hother
    have hlow := (h.length_bounds hone).1
    have hhigh := (h.length_bounds hother).2
    omega
  case simple =>
    intro queued hqueued
    rcases List.mem_append.mp hqueued with hold | hmem
    · obtain ⟨hnodup, hsubset⟩ := h.simple queued (List.mem_cons_of_mem first hold)
      exact ⟨hnodup, fun other hother => List.mem_append_right fresh (hsubset hother)⟩
    · obtain ⟨node, hfresh, rfl⟩ := List.mem_map.mp hmem
      obtain ⟨hnodup, hsubset⟩ := h.simple first List.mem_cons_self
      refine ⟨List.nodup_cons.mpr ⟨fun hmem => hnew node hfresh (hsubset hmem), hnodup⟩, ?_⟩
      exact List.cons_subset.mpr ⟨List.mem_append_left reached hfresh,
        fun other hother => List.mem_append_right fresh (hsubset hother)⟩

end Layered

/-- What a sweep finds meets no node twice, and no route from a target is shorter. -/
private theorem shortest_of_found_sweepTrails {trail : Trail} (reached : List Nat)
    (queue : List Trail) :
    ∀ tested, Layered graph seeds isTarget isBarrier reached tested queue →
      (graph.sweepTrails isTarget isBarrier reached queue).found = some trail →
      trail.nodes.Nodup ∧ ∀ route : Trail, route.IsRoute graph seeds isBarrier →
        isTarget route.head = true → trail.length ≤ route.length := by
  fun_induction sweepTrails graph isTarget isBarrier reached queue with
  | case1 reached =>
    intro tested h hfound
    cases hfound
  | case2 reached first queue htarget =>
    intro tested h hfound
    cases hfound
    exact ⟨(h.simple _ List.mem_cons_self).1, fun route => h.length_le_of_isRoute⟩
  | case3 reached first queue htarget hbarrier ih =>
    intro tested h hfound
    have hstep := h.step (by simpa using htarget) [] (by simp) (by simp [hbarrier])
    exact ih (first :: tested) (by simpa using hstep) hfound
  | case4 reached first queue htarget hbarrier fresh ih =>
    intro tested h hfound
    have hstep := h.step (by simpa using htarget) fresh
      (fun node hnode => (mem_of_mem_discover hnode).2)
      (fun _ node hnode => mem_reached_or_mem_discover hnode)
    exact ih (first :: tested) hstep hfound

/-- Before the first test the queue holds the seeds, each once. -/
private theorem layered_starts (graph : Digraph ν κ) (seeds : List Nat)
    (isTarget isBarrier : Nat → Bool) :
    Layered graph seeds isTarget isBarrier (discover [] seeds) []
      ((discover [] seeds).map fun seed => { head := seed }) := by
  have hqueue {queued : Trail}
      (hqueued : queued ∈ (discover [] seeds).map fun seed => ({ head := seed } : Trail)) :
      ∃ seed ∈ discover [] seeds, queued = { head := seed } := by
    simpa [eq_comm] using hqueued
  have hlength {queued : Trail}
      (hqueued : queued ∈ (discover [] seeds).map fun seed => ({ head := seed } : Trail)) :
      queued.length = 0 := by
    obtain ⟨seed, -, rfl⟩ := hqueue hqueued
    rfl
  constructor
  case starts =>
    intro seed hseed
    refine List.mem_map_of_mem ?_
    exact (mem_reached_or_mem_discover hseed).resolve_left List.not_mem_nil
  case covers => exact fun node hnode => ⟨{ head := node }, List.mem_map_of_mem hnode, rfl⟩
  case missed => exact fun trail htrail => absurd htrail List.not_mem_nil
  case expanded => exact fun trail htrail => absurd htrail List.not_mem_nil
  case behind => exact fun trail htrail => absurd htrail List.not_mem_nil
  case sorted => exact List.pairwise_map.mpr (List.pairwise_of_forall fun _ _ => Nat.le_refl _)
  case narrow =>
    intro one hone other hother
    rw [hlength hone, hlength hother]
    exact Nat.zero_le _
  case simple =>
    intro queued hqueued
    obtain ⟨seed, hseed, rfl⟩ := hqueue hqueued
    exact ⟨List.pairwise_singleton _ seed, by simpa [Trail.nodes] using hseed⟩

/-- A search finds a trail exactly when a route starts at a target. The trail that it finds is such
a route and meets no node twice, and no such route has fewer nodes. -/
theorem search_shortest (graph : Digraph ν κ) (seeds : List Nat)
    (isTarget isBarrier : Nat → Bool) :
    ((graph.search seeds isTarget isBarrier).found.isSome = true ↔
      ∃ route : Trail, route.IsRoute graph seeds isBarrier ∧ isTarget route.head = true) ∧
    ∀ trail ∈ (graph.search seeds isTarget isBarrier).found,
      trail.IsRoute graph seeds isBarrier ∧ isTarget trail.head = true ∧ trail.nodes.Nodup ∧
      ∀ route : Trail, route.IsRoute graph seeds isBarrier → isTarget route.head = true →
        trail.nodes.length ≤ route.nodes.length := by
  refine ⟨found_isSome_iff, fun trail hfound => ?_⟩
  obtain ⟨hroute, htarget⟩ := isRoute_of_found hfound
  rw [search_eq_sweepTrails] at hfound
  obtain ⟨hnodup, hshortest⟩ :=
    shortest_of_found_sweepTrails _ _ [] (layered_starts graph seeds isTarget isBarrier) hfound
  exact ⟨hroute, htarget, hnodup, fun route hother hhead =>
    Nat.succ_le_succ (hshortest route hother hhead)⟩

/-- Three ways from node 4 to node 0, with a loop, cycles and two edges side by side:
4 → 3 → 2 → 0, 4 → 1 → 5 → 0 and 4 → 6 → 0. -/
private def threeWays : Digraph Unit Unit where
  nodes := List.replicate 7 ()
  edges := [(4, 3), (3, 2), (2, 0), (4, 1), (1, 5), (5, 0), (5, 0), (4, 6), (6, 0), (2, 2), (5, 1),
    (0, 4)].map fun (source, target) => ⟨source, target, ()⟩

theorem search_shortest_threeWays :
    ∃ trail, (threeWays.search [0, 0] (· = 4) (· = 6)).found = some trail ∧
      trail.nodes = [4, 1, 5, 0] ∧ trail.IsRoute threeWays [0, 0] (· = 6) ∧
      ∀ route : Trail, route.IsRoute threeWays [0, 0] (· = 6) → route.head = 4 →
        4 ≤ route.nodes.length := by
  have hfound : (threeWays.search [0, 0] (· = 4) (· = 6)).found = some ⟨4, [1, 5, 0]⟩ := by
    decide +kernel
  obtain ⟨-, hbest⟩ := search_shortest threeWays [0, 0] (· = 4) (· = 6)
  obtain ⟨hroute, -, -, hshortest⟩ := hbest _ hfound
  exact ⟨_, hfound, rfl, hroute, fun route hother hhead => hshortest route hother (by simp [hhead])⟩

end Digraph

end ScriptBackend

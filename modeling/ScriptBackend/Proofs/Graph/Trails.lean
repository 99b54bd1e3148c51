import ScriptBackend.Graph.Search

/-!
# Trails of a backward search

A search notes which node each node was reached from, and reads the way from a target to its seed
off these notes. It may as well queue with each node the trail that leads from the node to its seed
and answer a hit by the trail. Notes are only added, and for nodes that had none, so the way from a
node stays the same once the node is reached, and both searches give the same result.
-/

namespace ScriptBackend

namespace Digraph

/-- Among notes made for some nodes, a node is found exactly if it is one of them. -/
private theorem lookup_map_pair (reachedFrom : Nat → Nat) (nodes : List Nat) (node : Nat) :
    (nodes.map fun node => (node, reachedFrom node)).lookup node =
      if node ∈ nodes then some (reachedFrom node) else none := by
  induction nodes with
  | nil => rfl
  | cons first rest ih =>
    rw [List.map_cons, List.lookup_cons, ih]
    by_cases h : node = first
    · simp [h]
    · simp [h, beq_false_of_ne h]

/-- A node that is found in the notes was noted. -/
private theorem mem_noted {next : List (Nat × Nat)} {node after : Nat}
    (h : next.lookup node = some after) : node ∈ noted next := by
  obtain ⟨before, later, hsplit, -⟩ := List.lookup_eq_some_iff.mp h
  simp [noted, hsplit]

/-- Whether the notes lead from a node over some nodes to a seed. -/
private inductive Leads (next : List (Nat × Nat)) : Nat → List Nat → Prop where
  | seed {node : Nat} (h : next.lookup node = some node) : Leads next node []
  | step {node after : Nat} {rest : List Nat} (h : next.lookup node = some after)
    (hne : after ≠ node) (hrest : Leads next after rest) : Leads next node (after :: rest)

namespace Leads

variable {next more : List (Nat × Nat)} {node : Nat} {rest : List Nat}

/-- A node that has a way was noted. -/
private theorem head_mem (h : Leads next node rest) : node ∈ noted next := by
  cases h with
  | seed h => exact mem_noted h
  | step h => exact mem_noted h

/-- A way stays the same as long as what was noted stays. -/
private theorem mono (h : Leads next node rest)
    (hkept : ∀ {node after}, next.lookup node = some after → more.lookup node = some after) :
    Leads more node rest := by
  induction h with
  | seed h => exact .seed (hkept h)
  | step h hne _ ih => exact .step (hkept h) hne ih

/-- Following the notes gives the way, if there are steps enough for it. -/
private theorem follow_eq (h : Leads next node rest) {steps : Nat} (hsteps : rest.length ≤ steps) :
    follow next steps node = rest := by
  induction h generalizing steps with
  | seed h => cases steps with
    | zero => rfl
    | succ fewer => rw [follow, h]; exact if_pos rfl
  | step h hne _ ih =>
    obtain ⟨fewer, rfl⟩ := Nat.exists_eq_add_of_le' (Nat.one_le_of_lt hsteps)
    rw [follow, h]
    simp only [hne, if_false]
    rw [ih (Nat.le_of_succ_le_succ hsteps)]

end Leads

variable {ν κ : Type}

/-- Test the queued trails in order, queueing what is reached through those that are neither targets
nor barriers. -/
def sweepTrails (graph : Digraph ν κ) (isTarget isBarrier : Nat → Bool) (reached : List Nat)
    (queue : List Trail) : SearchResult :=
  match queue with
  | [] => {}
  | trail :: queue =>
    if isTarget trail.head then { tested := [trail.head], found := some trail }
    else if isBarrier trail.head then
      (graph.sweepTrails isTarget isBarrier reached queue).after trail.head
    else
      let fresh := discover reached (graph.predecessors trail.head)
      (graph.sweepTrails isTarget isBarrier (fresh ++ reached)
        (queue ++ fresh.map trail.extend)).after trail.head
termination_by graph.sources.countP (fun source => source ∉ reached) + queue.length
decreasing_by
  · simp only [List.length_cons]
    omega
  · have hle := countP_discover_le reached (graph.predecessors_subset_sources trail.head)
    simp only [List.length_cons, List.length_append, List.length_map]
    omega

variable {graph : Digraph ν κ} {isTarget isBarrier : Nat → Bool}

/-- Whether the notes of a search lead along each queued trail. -/
private def Notes (next : List (Nat × Nat)) (queue : List Trail) : Prop :=
  ∀ trail ∈ queue, Leads next trail.head trail.rest ∧ trail.rest.length ≤ next.length

/-- The notes that are made when a node is passed lead along the trails that are queued. -/
private theorem Notes.step {next : List (Nat × Nat)} {trail : Trail} {queue : List Trail}
    {fresh : List Nat} (h : Notes next (trail :: queue))
    (hnew : ∀ node ∈ fresh, node ∉ noted next) :
    Notes (fresh.map (·, trail.head) ++ next) (queue ++ fresh.map trail.extend) := by
  -- what was noted before is still found, since no fresh node had a note
  have hkept {node after : Nat} (hlookup : next.lookup node = some after) :
      (fresh.map (·, trail.head) ++ next).lookup node = some after := by
    have hold : node ∉ fresh := fun hfresh => hnew node hfresh (mem_noted hlookup)
    rw [List.lookup_append, lookup_map_pair fun _ => trail.head, if_neg hold, hlookup]
    rfl
  intro queued hqueued
  rw [List.length_append, List.length_map]
  rcases List.mem_append.mp hqueued with hold | hadded
  · obtain ⟨hleads, hlength⟩ := h queued (List.mem_cons_of_mem trail hold)
    exact ⟨hleads.mono hkept, Nat.le_add_left_of_le hlength⟩
  · obtain ⟨node, hnode, rfl⟩ := List.mem_map.mp hadded
    obtain ⟨hleads, hlength⟩ := h trail List.mem_cons_self
    have hne : trail.head ≠ node := fun heq => hnew node hnode (heq ▸ hleads.head_mem)
    have hfound : (fresh.map (·, trail.head) ++ next).lookup node = some trail.head := by
      rw [List.lookup_append, lookup_map_pair fun _ => trail.head, if_pos hnode]
      rfl
    refine ⟨.step hfound hne (hleads.mono hkept), ?_⟩
    have hpos : 0 < fresh.length := List.length_pos_of_mem hnode
    change trail.rest.length + 1 ≤ _
    omega

/-- A search that follows its notes gives what one gives that carries trails. -/
private theorem sweep_eq_sweepTrails (reached : List Nat) (queue : List Trail) :
    ∀ next : List (Nat × Nat), reached = noted next → Notes next queue →
      graph.sweep isTarget isBarrier next (queue.map Trail.head) =
        graph.sweepTrails isTarget isBarrier reached queue := by
  fun_induction sweepTrails graph isTarget isBarrier reached queue with
  | case1 reached =>
    intro next hreached hnotes
    rw [List.map_nil, sweep]
  | case2 reached trail queue htarget =>
    intro next hreached hnotes
    obtain ⟨hleads, hlength⟩ := hnotes trail List.mem_cons_self
    rw [List.map_cons, sweep, if_pos htarget, hleads.follow_eq hlength]
  | case3 reached trail queue htarget hbarrier ih =>
    intro next hreached hnotes
    rw [List.map_cons, sweep, if_neg htarget, if_pos hbarrier,
      ih next hreached fun queued hqueued => hnotes queued (List.mem_cons_of_mem trail hqueued)]
  | case4 reached trail queue htarget hbarrier fresh ih =>
    intro next hreached hnotes
    subst hreached
    have hnew : ∀ node ∈ fresh, node ∉ noted next := fun _ hnode => (mem_of_mem_discover hnode).2
    have hheads : (queue ++ fresh.map trail.extend).map Trail.head =
        queue.map Trail.head ++ fresh := by simp [Trail.extend, Function.comp_def]
    rw [List.map_cons, sweep, if_neg htarget, if_neg hbarrier,
      ← ih (fresh.map (·, trail.head) ++ next) (by simp) (hnotes.step hnew), hheads]

/-- A search gives what one gives that carries a trail for each node it queues. -/
theorem search_eq_sweepTrails (graph : Digraph ν κ) (seeds : List Nat)
    (isTarget isBarrier : Nat → Bool) :
    graph.search seeds isTarget isBarrier =
      graph.sweepTrails isTarget isBarrier (discover [] seeds)
        ((discover [] seeds).map fun seed => { head := seed }) := by
  have hheads : ((discover [] seeds).map fun seed => ({ head := seed } : Trail)).map Trail.head =
      discover [] seeds := by simp [Function.comp_def]
  have hnotes : Notes ((discover [] seeds).map fun seed => (seed, seed))
      ((discover [] seeds).map fun seed => { head := seed }) := by
    intro trail htrail
    obtain ⟨seed, hseed, rfl⟩ := List.mem_map.mp htrail
    exact ⟨.seed ((lookup_map_pair id _ seed).trans (if_pos hseed)), Nat.zero_le _⟩
  rw [search, ← sweep_eq_sweepTrails _ _ _ (by simp [noted, Function.comp_def]) hnotes, hheads]

end Digraph

end ScriptBackend

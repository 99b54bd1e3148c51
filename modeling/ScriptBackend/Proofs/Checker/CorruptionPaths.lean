import ScriptBackend.Proofs.Checker.Corruption

/-!
# Corruption paths are exact

A path that is reported leads along edges from a node that corrupts the pointer to an exit, and
nothing on it restores the pointer. Where there is such a walk at all, one is reported: the search
starts from every node before an exit, and each of these nodes is listed with an exit, so the trail
that the search finds is never dropped.
-/

namespace ScriptBackend

namespace FlowGraph

/-- Whether control can run along some nodes to an exit and leave a pointer corrupted. -/
structure ExitsCorrupted (graph : FlowGraph) (table : List Effects) (pointers : PointerSet)
    (nodes : List Nat) (exit : Nat) : Prop where
  /-- An edge leads from each node to the next, and from the last node to the exit. -/
  walk : (nodes ++ [exit]).IsChain graph.Adjacent
  /-- The first node corrupts the pointer. -/
  corrupts : ∃ first ∈ nodes.head?, corruptsAt table pointers first = true
  /-- No node restores the pointer. -/
  unrestored : ∀ node ∈ nodes, restoresAt table pointers node = false
  /-- The exit is a return, or a jump that does not restore the pointer. -/
  leaves : (graph.node exit).opcode? = some .leave ∨
    (graph.node exit).opcode? = some .jump ∧ restoresAt table pointers exit = false

variable {graph : FlowGraph} {table : List Effects} {pointers : PointerSet}

/-- What corrupts a pointer does not restore it. -/
theorem restoresAt_eq_false_of_corruptsAt {node : Nat}
    (h : corruptsAt table pointers node = true) : restoresAt table pointers node = false := by
  unfold corruptsAt at h
  rw [restoresAt, Effects.restores, h, Bool.not_true, Bool.and_false]

/-- The nodes with an opcode are those whose instruction has it. -/
theorem mem_nodesWith_iff {opcode : Opcode} {node : Nat} :
    node ∈ graph.nodesWith opcode ↔ (graph.node node).opcode? = some opcode := by
  rw [nodesWith, List.mem_filter, List.mem_range, decide_eq_true_eq, and_iff_right_iff_imp]
  intro hopcode
  by_contra hge
  -- past the last node there is only the default, which has no instruction
  rw [FlowGraph.node, List.getD_eq_default _ _ (Nat.le_of_not_lt hge)] at hopcode
  cases hopcode

/-- The exits that are searched from are the returns and the jumps that do not restore the
pointer. -/
theorem mem_exits_iff {exit : Nat} :
    exit ∈ graph.exits table pointers ↔ (graph.node exit).opcode? = some .leave ∨
      (graph.node exit).opcode? = some .jump ∧ restoresAt table pointers exit = false := by
  rw [exits, List.mem_append, List.mem_filter, mem_nodesWith_iff, mem_nodesWith_iff,
    Bool.not_eq_true']

/-- The exit that is listed with a node comes right after the node. -/
private theorem of_lookup_lastSteps {node exit : Nat}
    (h : (graph.lastSteps table pointers).lookup node = some exit) :
    exit ∈ graph.exits table pointers ∧ graph.Adjacent node exit := by
  obtain ⟨before, after, hsteps, -⟩ := List.lookup_eq_some_iff.mp h
  have hmem : (node, exit) ∈ graph.lastSteps table pointers := by simp [hsteps]
  obtain ⟨found, hfound, hstep⟩ := List.mem_flatMap.mp hmem
  obtain ⟨source, hsource, heq⟩ := List.mem_map.mp hstep
  cases heq
  exact ⟨hfound, Digraph.mem_predecessors.mp (List.mem_filter.mp hsource).1⟩

/-- The last of the nodes of a trail is its last node. -/
private theorem getLast?_nodes (trail : Trail) : trail.nodes.getLast? = some trail.last := by
  rw [Trail.nodes, Trail.last, List.getLast?_cons, List.getLastD_eq_getLast?]

/-- A route from a corrupting node, taken on to an exit behind its last node, leaves the pointer
corrupted. -/
theorem exitsCorrupted_of_isRoute {trail : Trail} {exit : Nat}
    (hroute : trail.IsRoute graph (graph.seeds table pointers) (restoresAt table pointers))
    (hhead : corruptsAt table pointers trail.head = true)
    (hexit : exit ∈ graph.exits table pointers) (hedge : graph.Adjacent trail.last exit) :
    graph.ExitsCorrupted table pointers trail.nodes exit where
  walk := by
    rw [List.isChain_append]
    refine ⟨hroute.walk, List.isChain_singleton exit, ?_⟩
    rw [getLast?_nodes]
    simpa using hedge
  corrupts := ⟨trail.head, rfl, hhead⟩
  unrestored := by
    intro node hnode
    rcases List.mem_cons.mp hnode with rfl | hrest
    · exact restoresAt_eq_false_of_corruptsAt hhead
    · exact hroute.clear node hrest
  leaves := mem_exits_iff.mp hexit

/-- A walk that leaves the pointer corrupted is a route from a corrupting node. -/
theorem ExitsCorrupted.exists_isRoute {nodes : List Nat} {exit : Nat}
    (h : graph.ExitsCorrupted table pointers nodes exit) :
    ∃ trail : Trail,
      trail.IsRoute graph (graph.seeds table pointers) (restoresAt table pointers) ∧
      corruptsAt table pointers trail.head = true := by
  obtain ⟨first, hfirst, hcorrupts⟩ := h.corrupts
  obtain ⟨rest, rfl⟩ := List.head?_eq_some_iff.mp hfirst
  obtain ⟨hwalk, -, hlast⟩ := List.isChain_append.mp h.walk
  have hmem : (⟨first, rest⟩ : Trail).last ∈ first :: rest :=
    List.mem_of_getLast? (getLast?_nodes ⟨first, rest⟩)
  refine ⟨⟨first, rest⟩, ⟨hwalk, mem_seeds_iff.mpr ⟨exit, mem_exits_iff.mpr h.leaves, ?_, ?_⟩,
    fun node hnode => h.unrestored node (List.mem_cons_of_mem first hnode)⟩, hcorrupts⟩
  · exact hlast _ (getLast?_nodes ⟨first, rest⟩) exit rfl
  · exact h.unrestored _ hmem

/-- A trail that the search finds is reported, with an exit that comes right after it. -/
theorem corruptionPath?_of_found {trail : Trail}
    (h : (graph.search (graph.seeds table pointers) (corruptsAt table pointers)
      (restoresAt table pointers)).found = some trail) :
    ∃ exit, graph.corruptionPath? table pointers = some ⟨pointers, trail, exit⟩ ∧
      graph.ExitsCorrupted table pointers trail.nodes exit := by
  obtain ⟨hroute, hhead⟩ := Digraph.isRoute_of_found h
  obtain ⟨exit, hlookup⟩ := exists_lookup_lastSteps hroute.ends
  obtain ⟨hexit, hedge⟩ := of_lookup_lastSteps hlookup
  refine ⟨exit, ?_, exitsCorrupted_of_isRoute hroute hhead hexit hedge⟩
  simp [corruptionPath?, h, hlookup]

/-- A corruption path is found exactly when control can run to an exit with the pointer corrupted,
the path that is found is such a run, and every trail that the search finds is reported. -/
theorem corruptionPath?_exact (graph : FlowGraph) (table : List Effects) (pointers : PointerSet) :
    ((graph.corruptionPath? table pointers).isSome = true ↔
      ∃ nodes exit, graph.ExitsCorrupted table pointers nodes exit) ∧
    (∀ path ∈ graph.corruptionPath? table pointers, path.pointer = pointers ∧
      graph.ExitsCorrupted table pointers path.trail.nodes path.exit) ∧
    (graph.corruptionPath? table pointers).map CorruptionPath.trail =
      (graph.search (graph.seeds table pointers) (corruptsAt table pointers)
        (restoresAt table pointers)).found := by
  cases hfound : (graph.search (graph.seeds table pointers) (corruptsAt table pointers)
    (restoresAt table pointers)).found with
  | some trail =>
    obtain ⟨exit, hpath, hexits⟩ := corruptionPath?_of_found hfound
    rw [hpath]
    refine ⟨iff_of_true rfl ⟨trail.nodes, exit, hexits⟩, fun path hmem => ?_, rfl⟩
    obtain rfl := Option.mem_some_iff.mp hmem
    exact ⟨rfl, hexits⟩
  | none =>
    have hpath : graph.corruptionPath? table pointers = none := by
      rw [corruptionPath?, hfound]
      rfl
    have hnone : ¬∃ nodes exit, graph.ExitsCorrupted table pointers nodes exit := by
      rintro ⟨nodes, exit, hexits⟩
      have hsome := Digraph.found_isSome_iff.mpr hexits.exists_isRoute
      rw [hfound] at hsome
      cases hsome
    rw [hpath]
    refine ⟨iff_of_false Bool.false_ne_true hnone, fun path hmem => ?_, rfl⟩
    exact absurd hmem (Option.not_mem_none path)

/-- A script that corrupts a pointer and then returns or jumps, both from one comparison. -/
private def partWaysScript : CompiledScript where
  symbol := ⟨.proc, "part_ways", [], []⟩
  blocks := [
    ⟨⟨"entry"⟩, [.onSymbol .command (.command ⟨"p_delay", [], []⟩), .pushInt 1, .pushInt 1,
      .branchTo .branchEquals ⟨"if_true_0"⟩, .onSymbol .jump (.script ⟨.label, "away", [], []⟩)]⟩,
    ⟨⟨"if_true_0"⟩, [⟨.leave, .none, none⟩]⟩]

/-- The effects of its nodes: the command, which comes right after the entry, corrupts the
pointer. -/
private def partWaysEffects : List Effects := [.none, { corrupted := .single .pActivePlayer }]

theorem corruptionPath?_exact_partWays :
    ∃ graph path, build partWaysScript {} = .ok graph ∧
      graph.corruptionPath? partWaysEffects (.single .pActivePlayer) = some path ∧
      path.trail.nodes = [1, 2, 3, 4] ∧ path.exit = 6 ∧
      graph.ExitsCorrupted partWaysEffects (.single .pActivePlayer) [1, 2, 3, 4] 6 := by
  have hrun : ((build partWaysScript {}).toOption.bind fun graph =>
      graph.corruptionPath? partWaysEffects (.single .pActivePlayer)) =
        some ⟨.single .pActivePlayer, ⟨1, [2, 3, 4]⟩, 6⟩ := by decide +kernel
  obtain ⟨graph, hgraph, hpath⟩ := Option.bind_eq_some_iff.mp hrun
  have hbuild : build partWaysScript {} = .ok graph := by
    cases hresult : build partWaysScript {} with
    | error error => simp [hresult, Except.toOption] at hgraph
    | ok built => simpa [hresult, Except.toOption] using hgraph
  obtain ⟨-, hexits, -⟩ := corruptionPath?_exact graph partWaysEffects (.single .pActivePlayer)
  exact ⟨graph, _, hbuild, hpath, rfl, rfl, (hexits _ hpath).2⟩

end FlowGraph

end ScriptBackend

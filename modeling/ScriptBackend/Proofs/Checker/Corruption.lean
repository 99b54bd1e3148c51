import ScriptBackend.Proofs.Checker.Gathering
import ScriptBackend.Proofs.Graph.Routes

/-!
# What a script exits with corrupted

A script exits with a pointer corrupted exactly when a route leads from a node that corrupts it to
an exit and passes no node that restores it. Tables with more corrupting and fewer restoring nodes
have more such routes. The pointers of a summary are those with a route, and the paths that are
reported are one for each of them in bit order, followed by one for the bits that name no pointer.
-/

namespace ScriptBackend

/-- Different pointers have different bits. -/
theorem Pointer.bit_inj {pointer other : Pointer} (h : pointer.bit = other.bit) :
    pointer = other := by
  cases pointer <;> cases other <;> first | rfl | cases h

namespace PointerSet

/-- The set of one pointer has the pointer's bit only. -/
theorem getLsbD_single (pointer : Pointer) (i : Nat) :
    (single pointer).bits.getLsbD i = true ↔ i = pointer.bit := by
  have hbit : pointer.bit < 32 := by cases pointer <;> decide
  simp only [single, BitVec.getLsbD_twoPow, Bool.and_eq_true, decide_eq_true_eq]
  omega

/-- The unnamed part of a set has no bit of a pointer. -/
theorem getLsbD_unnamed_bit (set : PointerSet) (pointer : Pointer) :
    set.unnamed.bits.getLsbD pointer.bit = false := by
  rw [unnamed, BitVec.getLsbD_and, Bool.and_eq_false_iff]
  right
  cases pointer <;> decide

/-- The members of a set are its named pointers and its unnamed part, if that is not empty. -/
theorem mem_members_iff {set member : PointerSet} :
    member ∈ set.members ↔
      (∃ pointer, single pointer = member ∧ set.contains (single pointer) = true) ∨
        (member = set.unnamed ∧ set.unnamed.isEmpty = false) := by
  rw [members, List.mem_append, List.mem_filter, List.mem_map]
  refine or_congr ?_ ?_
  · constructor
    · rintro ⟨⟨pointer, -, rfl⟩, hcontains⟩
      exact ⟨pointer, rfl, hcontains⟩
    · rintro ⟨pointer, rfl, hcontains⟩
      exact ⟨⟨pointer, pointer.mem_all, rfl⟩, hcontains⟩
  · cases set.unnamed.isEmpty <;> simp

end PointerSet

namespace FlowGraph

variable {graph : FlowGraph} {table : List Effects} {pointers : PointerSet}

/-- A search for corruption starts from the nodes before an exit that do not restore the pointer. -/
theorem mem_seeds_iff {node : Nat} :
    node ∈ graph.seeds table pointers ↔
      ∃ exit ∈ graph.exits table pointers, graph.Adjacent node exit ∧
        restoresAt table pointers node = false := by
  simp only [seeds, ascending_eq_mergeSort, List.mem_mergeSort, lastSteps, List.mem_map,
    List.mem_flatMap, List.mem_filter, Digraph.mem_predecessors]
  constructor
  · rintro ⟨step, ⟨exit, hexit, node, ⟨hedge, hrestores⟩, rfl⟩, rfl⟩
    exact ⟨exit, hexit, hedge, by simpa using hrestores⟩
  · rintro ⟨exit, hexit, hedge, hrestores⟩
    exact ⟨(node, exit), ⟨exit, hexit, node, ⟨hedge, by simpa using hrestores⟩, rfl⟩, rfl⟩

/-- Each node that the search starts from is listed with an exit. -/
theorem exists_lookup_lastSteps {node : Nat} (h : node ∈ graph.seeds table pointers) :
    ∃ exit, (graph.lastSteps table pointers).lookup node = some exit := by
  rw [seeds, ascending_eq_mergeSort, List.mem_mergeSort] at h
  obtain ⟨step, hstep, rfl⟩ := List.mem_map.mp h
  cases hlookup : (graph.lastSteps table pointers).lookup step.1 with
  | some exit => exact ⟨exit, rfl⟩
  | none => exact absurd (List.lookup_eq_none_iff.mp hlookup step hstep) (by simp)

/-- A script can exit with a pointer corrupted exactly when a route that passes no restoring node
leads from a corrupting node to the node before an exit. -/
theorem corruptionPath?_isSome_iff :
    (graph.corruptionPath? table pointers).isSome = true ↔
      ∃ trail : Trail,
        trail.IsRoute graph (graph.seeds table pointers) (restoresAt table pointers) ∧
        corruptsAt table pointers trail.head = true := by
  rw [← Digraph.found_isSome_iff, corruptionPath?]
  cases hfound : (graph.search (graph.seeds table pointers) (corruptsAt table pointers)
    (restoresAt table pointers)).found with
  | none => simp
  | some trail =>
    obtain ⟨exit, hexit⟩ := exists_lookup_lastSteps (Digraph.isRoute_of_found hfound).1.ends
    simp [hexit]

/-- A path is about the pointer that it was searched for. -/
theorem pointer_of_corruptionPath? {path : CorruptionPath}
    (h : graph.corruptionPath? table pointers = some path) : path.pointer = pointers := by
  obtain ⟨trail, -, hrest⟩ := Option.bind_eq_some_iff.mp h
  obtain ⟨exit, -, hpath⟩ := Option.bind_eq_some_iff.mp hrest
  cases hpath
  rfl

/-- With more corrupting and fewer restoring nodes a script can still exit with a pointer
corrupted. -/
theorem corruptionPath?_isSome_mono {other : List Effects}
    (hcorrupts : ∀ node, corruptsAt table pointers node = true →
      corruptsAt other pointers node = true)
    (hrestores : ∀ node, restoresAt other pointers node = true →
      restoresAt table pointers node = true)
    (h : (graph.corruptionPath? table pointers).isSome = true) :
    (graph.corruptionPath? other pointers).isSome = true := by
  rw [corruptionPath?_isSome_iff] at h ⊢
  obtain ⟨trail, hroute, hhead⟩ := h
  have hkept {node : Nat} (hnode : restoresAt table pointers node = false) :
      restoresAt other pointers node = false := by
    by_contra hother
    rw [hrestores node (by simpa using hother)] at hnode
    cases hnode
  refine ⟨trail, hroute.mono (fun node hnode => ?_) hrestores, hcorrupts _ hhead⟩
  rw [mem_seeds_iff] at hnode ⊢
  obtain ⟨exit, hexit, hedge, hnode⟩ := hnode
  refine ⟨exit, ?_, hedge, hkept hnode⟩
  rcases List.mem_append.mp hexit with hleave | hjump
  · exact List.mem_append_left _ hleave
  · obtain ⟨hjump, hopen⟩ := List.mem_filter.mp hjump
    refine List.mem_append_right _ (List.mem_filter.mpr ⟨hjump, ?_⟩)
    simpa using hkept (by simpa using hopen)

/-- A bit is corrupted somewhere exactly when a node corrupts it. -/
theorem getLsbD_corruptedSomewhere_iff {i : Nat} :
    (corruptedSomewhere table).bits.getLsbD i = true ↔
      ∃ node, (table.getD node .none).corrupted.bits.getLsbD i = true := by
  have hfold := getLsbD_foldl_union Effects.corrupted (fun _ => true) table ∅ i
  simp only [if_true, true_and, PointerSet.getLsbD_empty, Bool.false_eq_true, false_or] at hfold
  rw [corruptedSomewhere, hfold]
  constructor
  · rintro ⟨effects, hmem, hbit⟩
    obtain ⟨node, hnode⟩ := List.mem_iff_getElem?.mp hmem
    exact ⟨node, by rwa [List.getD_eq_getElem?_getD, hnode]⟩
  · rintro ⟨node, hbit⟩
    rw [List.getD_eq_getElem?_getD] at hbit
    cases hnode : table[node]? with
    | none =>
      rw [hnode] at hbit
      simp [Effects.none] at hbit
    | some effects =>
      rw [hnode] at hbit
      exact ⟨effects, List.mem_of_getElem? hnode, hbit⟩

/-- What a script can exit with corrupted is corrupted somewhere. -/
theorem contains_corruptedSomewhere (h : (graph.corruptionPath? table pointers).isSome = true) :
    (corruptedSomewhere table).contains pointers = true := by
  obtain ⟨trail, -, hhead⟩ := corruptionPath?_isSome_iff.mp h
  rw [PointerSet.contains_iff]
  intro i hi
  exact getLsbD_corruptedSomewhere_iff.mpr ⟨trail.head, PointerSet.contains_iff.mp hhead i hi⟩

/-- The paths that are reported: one for each pointer that the script can exit with corrupted, in
bit order, then one for the unnamed bits. -/
theorem corruptedAtExit_eq (graph : FlowGraph) (table : List Effects) :
    graph.corruptedAtExit table =
      (Pointer.all.filterMap fun pointer => graph.corruptionPath? table (.single pointer)) ++
        if (corruptedSomewhere table).unnamed.isEmpty then []
        else (graph.corruptionPath? table (corruptedSomewhere table).unnamed).toList := by
  rw [corruptedAtExit, PointerSet.members, List.filterMap_append, List.filterMap_filter,
    List.filterMap_map]
  congr 1
  · refine List.filterMap_congr fun pointer _ => ?_
    by_cases hcontains : (corruptedSomewhere table).contains (.single pointer) = true
    · simp [hcontains]
    · have hnone : graph.corruptionPath? table (.single pointer) = none := by
        rw [← Option.not_isSome_iff_eq_none]
        exact mt contains_corruptedSomewhere hcontains
      simp [hcontains, hnone]
  · cases (corruptedSomewhere table).unnamed.isEmpty with
    | true => rfl
    | false =>
      cases hpath : graph.corruptionPath? table (corruptedSomewhere table).unnamed <;>
        simp [hpath]

/-- A bit of what a summary corrupts comes from a path that is reported. -/
theorem getLsbD_corrupted_summary_iff {i : Nat} :
    (graph.summary table).corrupted.bits.getLsbD i = true ↔
      ∃ path ∈ graph.corruptedAtExit table, path.pointer.bits.getLsbD i = true := by
  have hfold := getLsbD_foldl_union CorruptionPath.pointer (fun _ => true)
    (graph.corruptedAtExit table) ∅ i
  simp only [if_true, true_and, PointerSet.getLsbD_empty, Bool.false_eq_true, false_or] at hfold
  exact hfold

/-- A summary corrupts each member of what is corrupted somewhere that has a path. -/
theorem contains_corrupted_summary {member : PointerSet}
    (hmember : member ∈ (corruptedSomewhere table).members)
    (h : (graph.corruptionPath? table member).isSome = true) :
    (graph.summary table).corrupted.contains member = true := by
  obtain ⟨path, hpath⟩ := Option.isSome_iff_exists.mp h
  rw [PointerSet.contains_iff]
  intro i hi
  refine getLsbD_corrupted_summary_iff.mpr
    ⟨path, List.mem_filterMap.mpr ⟨member, hmember, hpath⟩, ?_⟩
  rwa [pointer_of_corruptionPath? hpath]

/-- A summary corrupts exactly the pointers that the script can exit with corrupted. -/
theorem contains_corrupted_summary_iff {pointer : Pointer} :
    (graph.summary table).corrupted.contains (.single pointer) = true ↔
      (graph.corruptionPath? table (.single pointer)).isSome = true := by
  constructor
  · intro h
    rw [PointerSet.contains_single_iff, getLsbD_corrupted_summary_iff] at h
    obtain ⟨path, hmem, hbit⟩ := h
    obtain ⟨member, hmember, hpath⟩ := List.mem_filterMap.mp hmem
    rw [pointer_of_corruptionPath? hpath] at hbit
    rcases PointerSet.mem_members_iff.mp hmember with ⟨named, rfl, -⟩ | ⟨rfl, -⟩
    · obtain rfl : pointer = named := Pointer.bit_inj ((PointerSet.getLsbD_single named _).mp hbit)
      exact Option.isSome_iff_exists.mpr ⟨path, hpath⟩
    · rw [PointerSet.getLsbD_unnamed_bit] at hbit
      cases hbit
  · intro h
    exact contains_corrupted_summary (PointerSet.mem_members_iff.mpr
      (.inl ⟨pointer, rfl, contains_corruptedSomewhere h⟩)) h

end FlowGraph

end ScriptBackend

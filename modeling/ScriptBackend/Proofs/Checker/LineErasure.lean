import ScriptBackend.Pipeline
import ScriptBackend.Proofs.Checker.Repeating
import ScriptBackend.Proofs.Flow.LineErasure

/-!
# Pointer checks without line markers

A checker reads of a flow graph its edges and the instructions of its nodes, but never their places.
So two checkers, one of which knows the scripts of the other without their line markers, give the
same answers as long as they remember the same summaries and, but for places, the same graphs; and
after each answer they still do. What is found about pointers is the same with and without markers.
-/

namespace ScriptBackend

/-- A search goes the same way in graphs with the same predecessors. -/
private theorem Digraph.sweep_congr {ν κ : Type} {first second : Digraph ν κ}
    (h : first.predecessors = second.predecessors) (isTarget isBarrier : Nat → Bool)
    (next : List (Nat × Nat)) (queue : List Nat) :
    first.sweep isTarget isBarrier next queue = second.sweep isTarget isBarrier next queue := by
  fun_induction first.sweep isTarget isBarrier next queue with
  | case1 next => rw [sweep]
  | case2 next node queue htarget => rw [sweep, if_pos htarget]
  | case3 next node queue htarget hbarrier ih => rw [sweep, if_neg htarget, if_pos hbarrier, ih]
  | case4 next node queue htarget hbarrier fresh ih =>
    rw [sweep, if_neg htarget, if_neg hbarrier, ih, ← h]

namespace FlowGraph

variable (graph : FlowGraph) (table : List Effects)

/-- A node is the same in a graph that has forgotten its places, but for its own place. -/
private theorem node_unplaced (index : Nat) :
    graph.unplaced.node index = (graph.node index).unplaced := by
  unfold node unplaced
  rw [List.getD_eq_getElem?_getD, List.getElem?_map, List.getD_eq_getElem?_getD]
  cases graph.nodes[index]? <;> rfl

/-- A node keeps its instruction when it forgets its place. -/
private theorem instruction?_unplaced (node : FlowNode) :
    node.unplaced.instruction? = node.instruction? := by
  cases node <;> rfl

/-- A node reads the same when it has forgotten its place. -/
private theorem text_unplaced (node : FlowNode) : node.unplaced.text = node.text := by
  cases node <;> rfl

/-- The same nodes have an opcode. -/
private theorem nodesWith_unplaced (opcode : Opcode) :
    graph.unplaced.nodesWith opcode = graph.nodesWith opcode := by
  unfold nodesWith FlowNode.opcode?
  simp only [size_unplaced, node_unplaced, instruction?_unplaced]

/-- The same corruption path is found. -/
private theorem corruptionPath?_unplaced (pointer : PointerSet) :
    graph.unplaced.corruptionPath? table pointer = graph.corruptionPath? table pointer := by
  have hsteps : graph.unplaced.lastSteps table pointer = graph.lastSteps table pointer := by
    unfold lastSteps exits
    simp only [nodesWith_unplaced]
    rfl
  have hseeds : graph.unplaced.seeds table pointer = graph.seeds table pointer := by
    unfold seeds
    rw [hsteps]
  have hpredecessors : graph.unplaced.predecessors = graph.predecessors := rfl
  unfold corruptionPath? Digraph.search
  rw [hsteps, hseeds, Digraph.sweep_congr hpredecessors]

/-- The same pointers are corrupted at an exit, by the same paths. -/
private theorem corruptedAtExit_unplaced :
    graph.unplaced.corruptedAtExit table = graph.corruptedAtExit table := by
  unfold corruptedAtExit
  simp only [corruptionPath?_unplaced]

/-- A node is an outcome of a comparison or not, wherever it stands. -/
private theorem isOutcome_unplaced (node : FlowNode) :
    isOutcome node.unplaced = isOutcome node := by
  cases node <;> rfl

/-- The summary is the same. -/
private theorem summary_unplaced : graph.unplaced.summary table = graph.summary table := by
  unfold summary
  rw [corruptedAtExit_unplaced]
  congr 1
  unfold unplaced
  rw [List.zip_map_left, List.foldl_map]
  simp only [Prod.map, isOutcome_unplaced, id]

end FlowGraph

/-- A corruption path is reported in the same words. -/
private theorem CorruptionPath.diagnostics_unplaced (path : CorruptionPath) (graph : FlowGraph)
    (symbol : ScriptSymbol) :
    path.diagnostics graph.unplaced symbol = path.diagnostics graph symbol := by
  unfold diagnostics FlowNode.span?
  simp only [FlowGraph.node_unplaced, FlowGraph.text_unplaced, FlowGraph.instruction?_unplaced]

namespace Checker

/-- Whether a checker knows the scripts of another one without their markers and remembers the same,
but for the places in graphs. -/
structure Unmarks (marked plain : Checker) : Prop where
  contracts : plain.contracts = marked.contracts
  scripts : plain.scripts = marked.scripts.map CompiledScript.unmarked
  graphs : ∀ id, (plain.graphs.find? id).map FlowGraph.unplaced =
    (marked.graphs.find? id).map FlowGraph.unplaced
  summaries : plain.summaries = marked.summaries
  pending : plain.pending = marked.pending

namespace Unmarks

variable {marked plain : Checker}

/-- Scripts are known under the same identities. -/
theorem script? (h : marked.Unmarks plain) (id : ScriptId) :
    plain.script? id = (marked.script? id).map CompiledScript.unmarked := by
  unfold Checker.script?
  rw [h.scripts, List.find?_map]
  rfl

/-- The same is remembered about a script. -/
theorem remembered? (h : marked.Unmarks plain) (id : ScriptId) :
    plain.remembered? id = marked.remembered? id := by
  unfold Checker.remembered?
  rw [h.summaries, h.pending]

/-- Making a script known and making it known without its markers go together. -/
private theorem add (h : marked.Unmarks plain) (script : CompiledScript) :
    (marked.add script).Unmarks (plain.add script.unmarked) := by
  have hknown : (plain.script? script.unmarked.id).isSome = (marked.script? script.id).isSome := by
    rw [script.id_unmarked, h.script?, Option.isSome_map]
  unfold Checker.add
  rw [hknown]
  split
  · refine ⟨h.contracts, ?_, h.graphs, h.summaries, h.pending⟩
    change plain.scripts.map _ = (marked.scripts.map _).map _
    rw [h.scripts, List.map_map, List.map_map]
    refine List.map_congr_left fun known _ => ?_
    rw [Function.comp_apply, Function.comp_apply, known.id_unmarked, script.id_unmarked]
    by_cases hid : known.id = script.id
    · rw [if_pos hid, if_pos hid]
    · rw [if_neg hid, if_neg hid]
  · refine ⟨h.contracts, ?_, h.graphs, h.summaries, h.pending⟩
    change plain.scripts ++ [script.unmarked] = (marked.scripts ++ [script]).map _
    rw [h.scripts, List.map_append]
    rfl

/-- Making scripts known and making them known without their markers go together. -/
theorem addAll (h : marked.Unmarks plain) (scripts : List CompiledScript) :
    (marked.addAll scripts).Unmarks (plain.addAll (scripts.map CompiledScript.unmarked)) := by
  induction scripts generalizing marked plain with
  | nil => exact h
  | cons script rest ih => exact ih (h.add script)

end Unmarks

end Checker

namespace Query

variable {α β : Type}

/-- Whether two questions, one asked of a checker and the other of one that knows its scripts
without markers, have answers that are the same in some sense and leave the checkers so. -/
def Alike (same : α → α → Prop) (query other : Query α) : Prop :=
  ∀ marked plain : Checker, marked.Unmarks plain →
    same (query marked).1 (other plain).1 ∧ (query marked).2.Unmarks (other plain).2

/-- An answer that takes no asking is the same. -/
private theorem alike_pure (value : α) : Alike Eq (pure value) (pure value) :=
  fun _ _ h => ⟨rfl, h⟩

/-- Questions in order are alike if the first are and the others are for answers that are the
same. -/
private theorem Alike.bind {same : α → α → Prop} {same' : β → β → Prop} {query other : Query α}
    {next otherNext : α → Query β} (h : Alike same query other)
    (hnext : ∀ value value', same value value' → Alike same' (next value) (otherNext value')) :
    Alike same' (query >>= next) (other >>= otherNext) := by
  intro marked plain hunmarks
  obtain ⟨hsame, hlater⟩ := h marked plain hunmarks
  exact hnext _ _ hsame _ _ hlater

private theorem alike_get : Alike Checker.Unmarks get get := fun _ _ h => ⟨h, h⟩

/-- Whether two flows are the same but for the places in their graphs. -/
inductive SameFlow : Option (Except FlowError FlowGraph) →
    Option (Except FlowError FlowGraph) → Prop where
  | unknown : SameFlow none none
  | error (error : FlowError) : SameFlow (some (.error error)) (some (.error error))
  | ok {graph other : FlowGraph} (h : graph.unplaced = other.unplaced) :
      SameFlow (some (.ok graph)) (some (.ok other))

/-- Flows are the same if they are once places are forgotten. -/
private theorem sameFlow_of_map_eq {outcome other : Except FlowError FlowGraph}
    (h : other.map FlowGraph.unplaced = outcome.map FlowGraph.unplaced) :
    SameFlow (some outcome) (some other) := by
  cases outcome with
  | error error =>
    cases other with
    | error error' =>
      cases h
      exact .error error
    | ok graph' => cases h
  | ok graph =>
    cases other with
    | error error' => cases h
    | ok graph' => exact .ok (Except.ok.inj h).symm

/-- The flow of a script is the same without markers. -/
private theorem alike_graph (id : ScriptId) : Alike SameFlow (graph id) (graph id) := by
  intro marked plain h
  have hscript := h.script? id
  unfold graph
  rw [hscript]
  cases marked.script? id with
  | none => exact ⟨.unknown, h⟩
  | some script =>
    have hfst : (plain.graphs.findOrBuild script.unmarked plain.contracts).1.map
          FlowGraph.unplaced =
        (marked.graphs.findOrBuild script marked.contracts).1.map FlowGraph.unplaced := by
      have hkept := h.graphs script.id
      rw [FlowCache.findOrBuild_fst, FlowCache.findOrBuild_fst, script.id_unmarked, h.contracts]
      cases hmarked : marked.graphs.find? script.id with
      | none =>
        rw [hmarked, Option.map_none, Option.map_eq_none_iff] at hkept
        rw [hkept]
        exact FlowGraph.unplaced_build_unmarked script marked.contracts
      | some graph =>
        rw [hmarked] at hkept
        obtain ⟨other, hother, hsame⟩ := Option.map_eq_some_iff.mp hkept
        rw [hother]
        exact congrArg Except.ok hsame
    refine ⟨sameFlow_of_map_eq hfst, h.contracts, h.scripts, fun other => ?_, h.summaries,
      h.pending⟩
    change ((plain.graphs.findOrBuild script.unmarked plain.contracts).2.find? other).map _ =
      ((marked.graphs.findOrBuild script marked.contracts).2.find? other).map _
    rw [FlowCache.find?_findOrBuild_snd, FlowCache.find?_findOrBuild_snd, script.id_unmarked]
    split
    · have hoption := congrArg Except.toOption hfst
      cases hplain : (plain.graphs.findOrBuild script.unmarked plain.contracts).1 <;>
        cases hmarked : (marked.graphs.findOrBuild script marked.contracts).1 <;>
        rw [hplain, hmarked] at hoption <;> exact hoption
    · exact h.graphs other

/-- The effects of a node are the same if those of a called script are. -/
private theorem alike_nodeEffects {callee : ScriptSymbol → Query Effects}
    (h : ∀ symbol, Alike Eq (callee symbol) (callee symbol)) (node : FlowNode) :
    Alike Eq (nodeEffects callee node) (nodeEffects callee node) := by
  intro marked plain hunmarks
  cases hcallee : node.callee? with
  | some symbol =>
    rw [nodeEffects_of_callee? hcallee, nodeEffects_of_callee? hcallee]
    exact h symbol marked plain hunmarks
  | none =>
    rw [nodeEffects_of_callee?_eq_none hcallee, nodeEffects_of_callee?_eq_none hcallee,
      hunmarks.contracts]
    exact ⟨rfl, hunmarks⟩

/-- The effects of nodes are the same if those of called scripts are. -/
private theorem alike_nodeTable {callee : ScriptSymbol → Query Effects}
    (h : ∀ symbol, Alike Eq (callee symbol) (callee symbol)) (nodes : List FlowNode) :
    Alike Eq (nodeTable callee nodes) (nodeTable callee nodes) := by
  induction nodes with
  | nil => exact alike_pure []
  | cons node rest ih =>
    refine (alike_nodeEffects h node).bind fun effects _ heffects => ?_
    subst heffects
    refine ih.bind fun table _ htable => ?_
    subst htable
    exact alike_pure _

/-- The effects of nodes are asked for alike when the nodes have forgotten their places. -/
private theorem nodeTable_unplaced (callee : ScriptSymbol → Query Effects)
    (nodes : List FlowNode) :
    nodeTable callee (nodes.map FlowNode.unplaced) = nodeTable callee nodes := by
  induction nodes with
  | nil => rfl
  | cons node rest ih =>
    have hnode : nodeEffects callee node.unplaced = nodeEffects callee node := by
      cases node <;> rfl
    rw [List.map_cons, nodeTable, nodeTable, hnode, ih]

/-- The effects of the nodes of graphs that are the same but for places are the same. -/
private theorem alike_nodeTable_of_unplaced_eq {callee : ScriptSymbol → Query Effects}
    (h : ∀ symbol, Alike Eq (callee symbol) (callee symbol)) {graph other : FlowGraph}
    (hgraphs : graph.unplaced = other.unplaced) :
    Alike Eq (nodeTable callee graph.nodes) (nodeTable callee other.nodes) := by
  have hnodes : graph.nodes.map FlowNode.unplaced = other.nodes.map FlowNode.unplaced :=
    congrArg Digraph.nodes hgraphs
  rw [← nodeTable_unplaced callee graph.nodes, hnodes, nodeTable_unplaced]
  exact alike_nodeTable h other.nodes

/-- A script is begun to be summarised alike. -/
private theorem alike_beginSummary (id : ScriptId) :
    Alike Eq (beginSummary id) (beginSummary id) := by
  intro marked plain h
  refine ⟨rfl, h.contracts, h.scripts, h.graphs, h.summaries, ?_⟩
  exact congrArg (id :: ·) h.pending

/-- A summary is remembered alike. -/
private theorem alike_endSummary (id : ScriptId) (effects : Effects) :
    Alike Eq (endSummary id effects) (endSummary id effects) := by
  intro marked plain h
  refine ⟨rfl, h.contracts, h.scripts, h.graphs, ?_, ?_⟩
  · exact congrArg ((id, effects) :: ·) h.summaries
  · exact congrArg (List.erase · id) h.pending

/-- The summary of a script within a depth is the same without markers. -/
private theorem alike_effectsWithin (depth : Nat) (symbol : ScriptSymbol) :
    Alike Eq (effectsWithin depth symbol) (effectsWithin depth symbol) := by
  induction depth generalizing symbol with
  | zero =>
    unfold effectsWithin
    refine alike_get.bind fun marked plain h => ?_
    rw [h.remembered?]
    cases marked.remembered? symbol.id with
    | some effects => exact alike_pure effects
    | none =>
      refine (alike_graph symbol.id).bind fun outcome other hflow => ?_
      cases hflow <;> exact alike_pure _
  | succ depth ih =>
    unfold effectsWithin
    refine alike_get.bind fun marked plain h => ?_
    rw [h.remembered?]
    cases marked.remembered? symbol.id with
    | some effects => exact alike_pure effects
    | none =>
      refine (alike_graph symbol.id).bind fun outcome other hflow => ?_
      cases hflow with
      | unknown => exact alike_pure _
      | error error => exact alike_pure _
      | @ok graph other hgraphs =>
        refine (alike_beginSummary symbol.id).bind fun _ _ _ => ?_
        refine (alike_nodeTable_of_unplaced_eq ih hgraphs).bind fun table _ htable => ?_
        subst htable
        rw [← graph.summary_unplaced, hgraphs, other.summary_unplaced]
        exact alike_endSummary symbol.id _

/-- The summary of a script is the same without markers. -/
private theorem alike_effects (symbol : ScriptSymbol) :
    Alike Eq (effects symbol) (effects symbol) := by
  refine alike_get.bind fun marked plain h => ?_
  rw [h.scripts, List.length_map]
  exact alike_effectsWithin marked.scripts.length symbol

/-- The report on a script is the same without markers. -/
private theorem alike_check (symbol : ScriptSymbol) : Alike Eq (check symbol) (check symbol) := by
  refine (alike_graph symbol.id).bind fun outcome other hflow => ?_
  cases hflow with
  | unknown => exact alike_pure _
  | error error => exact alike_pure _
  | @ok graph other hgraphs =>
    refine (alike_nodeTable_of_unplaced_eq alike_effects hgraphs).bind fun table _ htable => ?_
    subst htable
    have hpaths : graph.corruptedAtExit table = other.corruptedAtExit table := by
      rw [← graph.corruptedAtExit_unplaced, hgraphs, other.corruptedAtExit_unplaced]
    have hwords : ∀ path : CorruptionPath,
        path.diagnostics graph symbol = path.diagnostics other symbol := fun path => by
      rw [← path.diagnostics_unplaced graph, hgraphs, path.diagnostics_unplaced other]
    simp only [hpaths, hwords]
    exact alike_pure _

/-- The reports on scripts in order are the same without markers. -/
private theorem alike_checkEach (scripts : List CompiledScript) :
    Alike Eq (checkEach scripts) (checkEach (scripts.map CompiledScript.unmarked)) := by
  induction scripts with
  | nil => exact alike_pure _
  | cons script rest ih =>
    refine (alike_check script.symbol).bind fun first _ hfirst => ?_
    subst hfirst
    refine ih.bind fun others _ hothers => ?_
    subst hothers
    exact alike_pure _

end Query

/-- What is found about the pointers of scripts is the same without line markers. -/
theorem Config.checkPointers_unmarked (config : Config) (scripts : List CompiledScript) :
    config.checkPointers (scripts.map CompiledScript.unmarked) = config.checkPointers scripts := by
  have hnew : (Checker.new config.contracts).Unmarks (Checker.new config.contracts) :=
    ⟨rfl, rfl, fun _ => rfl, rfl, rfl⟩
  have hadded := hnew.addAll scripts
  have hcheck := (Query.alike_checkEach ((Checker.new config.contracts).addAll scripts).scripts
    _ _ hadded).1
  rw [← hadded.scripts] at hcheck
  exact hcheck.symm

end ScriptBackend

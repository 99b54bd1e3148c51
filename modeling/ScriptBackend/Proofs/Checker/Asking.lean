import Mathlib.Data.List.Perm.Subperm
import ScriptBackend.Proofs.Checker.Calls

/-!
# How a summary is found

Asking for the summary of a script searches the calls depth first. A script that was summarised
before or is being summarised is answered from memory, a script without a graph has no effects, and
any other script is summarised from the answers for its nodes, which are asked for in order. The
rules of asking are given as a relation between the checker before and after; the checker always
finds a summary by them, because a script is never summarised while it is being summarised, so the
known scripts bound how deep the search goes.
-/

namespace ScriptBackend

/-- Two questions in order are the second one asked of the checker that answered the first. -/
theorem Query.bind_apply {α β : Type} (query : Query α) (next : α → Query β) (checker : Checker) :
    (query >>= next) checker = next (query checker).1 (query checker).2 := rfl

namespace Checker

/-- Whether all that a checker remembers is so: the graphs are those of the known scripts, and
the scripts that are being summarised are different, have graphs and are not summarised yet. -/
structure Consistent (checker : Checker) : Prop where
  graphs : ∀ id graph, checker.graphs.find? id = some graph → checker.flow? id = some (.ok graph)
  pending_nodup : checker.pending.Nodup
  pending_flow : ∀ id ∈ checker.pending, checker.HasGraph id
  summaries : ∀ id effects, checker.summaries.lookup id = some effects → id ∉ checker.pending

/-- Whether a checker agrees with another one and remembers at least as many summaries. -/
structure Learns (checker later : Checker) : Prop extends checker.Agrees later where
  pending : later.pending = checker.pending
  summaries : ∀ id effects, checker.summaries.lookup id = some effects →
    later.summaries.lookup id = some effects

namespace Learns

variable {checker later last : Checker}

theorem refl (checker : Checker) : checker.Learns checker := ⟨⟨rfl, rfl⟩, rfl, fun _ _ h => h⟩

theorem trans (h : checker.Learns later) (hlast : later.Learns last) : checker.Learns last where
  toAgrees := h.toAgrees.trans hlast.toAgrees
  pending := hlast.pending.trans h.pending
  summaries id effects hfound := hlast.summaries id effects (h.summaries id effects hfound)

end Learns

variable {checker : Checker}

/-- A consistent checker answers with the flow of a script. -/
theorem Consistent.graph_fst (h : checker.Consistent) (id : ScriptId) :
    (Query.graph id checker).1 = checker.flow? id := by
  unfold Query.graph
  cases hscript : checker.script? id with
  | none => simp [flow?, hscript]
  | some script =>
    have hid : script.id = id := by simpa using List.find?_some hscript
    have hflow : checker.flow? id = some (FlowGraph.build script checker.contracts) := by
      rw [flow?, hscript, Option.map_some]
    simp only [FlowCache.findOrBuild]
    cases hfound : checker.graphs.find? script.id with
    | some graph =>
      rw [hid] at hfound
      exact (h.graphs id graph hfound).symm
    | none =>
      rw [hflow]
      cases FlowGraph.build script checker.contracts <;> rfl

/-- Asking for a flow adds to the remembered graphs only. -/
theorem graph_snd (checker : Checker) (id : ScriptId) :
    ∃ graphs, (Query.graph id checker).2 = { checker with graphs } := by
  unfold Query.graph
  cases checker.script? id with
  | none => exact ⟨checker.graphs, rfl⟩
  | some script => exact ⟨_, rfl⟩

/-- Asking for a flow learns. -/
theorem learns_graph (checker : Checker) (id : ScriptId) :
    checker.Learns (Query.graph id checker).2 := by
  obtain ⟨graphs, hgraphs⟩ := checker.graph_snd id
  rw [hgraphs]
  exact ⟨⟨rfl, rfl⟩, rfl, fun _ _ h => h⟩

/-- A graph that is remembered after asking for a flow was remembered before, or is the flow. -/
private theorem find?_graphs_graph (checker : Checker) {id other : ScriptId} {graph : FlowGraph}
    (h : (Query.graph id checker).2.graphs.find? other = some graph) :
    checker.graphs.find? other = some graph ∨ checker.flow? other = some (.ok graph) := by
  unfold Query.graph at h
  cases hscript : checker.script? id with
  | none => exact .inl (by simpa only [hscript] using h)
  | some script =>
    have hid : script.id = id := by simpa using List.find?_some hscript
    simp only [hscript, FlowCache.findOrBuild] at h
    split at h
    · exact .inl h
    · split at h
      · next built hbuilt =>
        by_cases hother : other = script.id
        · subst hother
          obtain rfl : built = graph := by simpa [FlowCache.find?] using h
          right
          rw [flow?, hid, hscript, Option.map_some, hbuilt]
        · left
          simpa [FlowCache.find?, List.lookup_cons, beq_false_of_ne hother] using h
      · exact .inl h

/-- Asking for a flow keeps a checker consistent. -/
theorem Consistent.graph (h : checker.Consistent) (id : ScriptId) :
    (Query.graph id checker).2.Consistent := by
  have hlearns := checker.learns_graph id
  obtain ⟨graphs, hgraphs⟩ := checker.graph_snd id
  constructor
  · intro other graph hfound
    rw [hlearns.flow?]
    rcases checker.find?_graphs_graph hfound with hfound | hflow
    · exact h.graphs other graph hfound
    · exact hflow
  · rw [hlearns.pending]
    exact h.pending_nodup
  · intro other hother
    rw [hlearns.pending] at hother
    rw [hlearns.hasGraph_iff]
    exact h.pending_flow other hother
  · intro other effects hfound
    rw [hgraphs] at hfound ⊢
    exact h.summaries other effects hfound

/-- The checker that begins to summarise a script. -/
def begin (checker : Checker) (id : ScriptId) : Checker :=
  (Query.beginSummary id (Query.graph id checker).2).2

/-- The checker that has summarised a script. -/
def finish (checker : Checker) (id : ScriptId) (effects : Effects) : Checker :=
  (Query.endSummary id effects checker).2

section Frame

variable (checker) (id : ScriptId)

theorem agrees_begin : checker.Agrees (checker.begin id) :=
  ⟨(checker.learns_graph id).scripts, (checker.learns_graph id).contracts⟩

@[simp] theorem pending_begin : (checker.begin id).pending = id :: checker.pending :=
  congrArg (id :: ·) (checker.learns_graph id).pending

@[simp] theorem summaries_begin : (checker.begin id).summaries = checker.summaries := by
  obtain ⟨graphs, hgraphs⟩ := checker.graph_snd id
  change (Query.graph id checker).2.summaries = checker.summaries
  rw [hgraphs]

theorem agrees_finish (effects : Effects) : checker.Agrees (checker.finish id effects) :=
  ⟨rfl, rfl⟩

theorem lookup_finish (effects : Effects) (other : ScriptId) :
    (checker.finish id effects).summaries.lookup other =
      if other = id then some effects else checker.summaries.lookup other := by
  change ((id, effects) :: checker.summaries).lookup other = _
  by_cases h : other = id
  · simp [h]
  · simp [List.lookup_cons, beq_false_of_ne h, h]

end Frame

/-- A script that is not remembered is neither summarised nor being summarised. -/
theorem remembered?_eq_none_iff {id : ScriptId} :
    checker.remembered? id = none ↔
      checker.summaries.lookup id = none ∧ id ∉ checker.pending := by
  unfold remembered?
  cases checker.summaries.lookup id with
  | some effects => simp
  | none => simp

/-- What is remembered of a script is its summary, or no effects while it is being summarised. -/
theorem eq_of_remembered? {id : ScriptId} {effects : Effects}
    (h : checker.remembered? id = some effects) :
    checker.summaries.lookup id = some effects ∨ (id ∈ checker.pending ∧ effects = .none) := by
  unfold remembered? at h
  split at h
  · next found hfound =>
    cases h
    exact .inl hfound
  · split at h
    · next hpending =>
      cases h
      exact .inr ⟨hpending, rfl⟩
    · cases h

/-- A consistent checker begins to summarise a script with a graph that it does not remember. -/
theorem Consistent.begin (h : checker.Consistent) {id : ScriptId} {graph : FlowGraph}
    (hnone : checker.remembered? id = none) (hflow : checker.flow? id = some (.ok graph)) :
    (checker.begin id).Consistent := by
  obtain ⟨hsummary, hpending⟩ := remembered?_eq_none_iff.mp hnone
  constructor
  · intro other found hfound
    rw [(checker.agrees_begin id).flow?, ← (checker.learns_graph id).flow?]
    exact (h.graph id).graphs other found hfound
  · rw [pending_begin]
    exact List.nodup_cons.mpr ⟨hpending, h.pending_nodup⟩
  · intro other hother
    rw [(checker.agrees_begin id).hasGraph_iff]
    rw [pending_begin] at hother
    rcases List.mem_cons.mp hother with rfl | hother
    · exact ⟨graph, hflow⟩
    · exact h.pending_flow other hother
  · intro other effects hfound
    rw [summaries_begin] at hfound
    rw [pending_begin, List.mem_cons, not_or]
    refine ⟨?_, h.summaries other effects hfound⟩
    rintro rfl
    rw [hsummary] at hfound
    cases hfound

/-- A checker that finishes the summary it began last is consistent. -/
theorem Consistent.finish (h : checker.Consistent) {id : ScriptId} {pending : List ScriptId}
    (hpending : checker.pending = id :: pending) (effects : Effects) :
    (checker.finish id effects).Consistent := by
  have hnodup := h.pending_nodup
  rw [hpending, List.nodup_cons] at hnodup
  have herase : (checker.finish id effects).pending = pending := by
    change checker.pending.erase id = pending
    rw [hpending, List.erase_cons_head]
  constructor
  · exact h.graphs
  · rw [herase]
    exact hnodup.2
  · intro other hother
    rw [herase] at hother
    exact h.pending_flow other (hpending ▸ List.mem_cons_of_mem id hother)
  · intro other found hfound
    rw [lookup_finish] at hfound
    rw [herase]
    split at hfound
    · next hother => exact hother ▸ hnodup.1
    · have hnot := h.summaries other found hfound
      rw [hpending] at hnot
      exact fun hmem => hnot (List.mem_cons_of_mem id hmem)

mutual

/-- Whether a checker gives a summary when it is asked for one, and what it knows then. -/
inductive Asks : Checker → ScriptSymbol → Effects → Checker → Prop where
  | remembered {checker : Checker} {symbol : ScriptSymbol} {effects : Effects}
      (hfound : checker.remembered? symbol.id = some effects) : Asks checker symbol effects checker
  | unknown {checker : Checker} {symbol : ScriptSymbol}
      (hnone : checker.remembered? symbol.id = none)
      (hflow : ∀ graph, checker.flow? symbol.id ≠ some (.ok graph)) :
      Asks checker symbol .none (Query.graph symbol.id checker).2
  | summarized {checker later : Checker} {symbol : ScriptSymbol} {graph : FlowGraph}
      {table : List Effects} (hnone : checker.remembered? symbol.id = none)
      (hflow : checker.flow? symbol.id = some (.ok graph))
      (hnodes : AsksAll (checker.begin symbol.id) graph.nodes table later) :
      Asks checker symbol (graph.summary table) (later.finish symbol.id (graph.summary table))

/-- Whether a checker gives effects for nodes when it is asked for them in order. -/
inductive AsksAll : Checker → List FlowNode → List Effects → Checker → Prop where
  | nil {checker : Checker} : AsksAll checker [] [] checker
  | own {checker later : Checker} {node : FlowNode} {nodes : List FlowNode} {table : List Effects}
      (hcallee : node.callee? = none) (hrest : AsksAll checker nodes table later) :
      AsksAll checker (node :: nodes) (node.ownEffects checker.contracts :: table) later
  | call {checker middle later : Checker} {node : FlowNode} {nodes : List FlowNode}
      {symbol : ScriptSymbol} {effects : Effects} {table : List Effects}
      (hcallee : node.callee? = some symbol) (hfirst : Asks checker symbol effects middle)
      (hrest : AsksAll middle nodes table later) :
      AsksAll checker (node :: nodes) (effects :: table) later

end

/-- A summary that was begun and found by learning is learnt. -/
theorem learns_finish {middle : Checker} {id : ScriptId} (hnone : checker.remembered? id = none)
    (hlearns : (checker.begin id).Learns middle) (effects : Effects) :
    checker.Learns (middle.finish id effects) := by
  have hpending : middle.pending = id :: checker.pending :=
    hlearns.pending.trans (checker.pending_begin id)
  refine ⟨?_, ?_, ?_⟩
  · exact ((checker.agrees_begin id).trans hlearns.toAgrees).trans (middle.agrees_finish id effects)
  · change middle.pending.erase id = checker.pending
    rw [hpending, List.erase_cons_head]
  · intro other found hfound
    have hother : other ≠ id := by
      rintro rfl
      rw [(remembered?_eq_none_iff.mp hnone).1] at hfound
      cases hfound
    rw [lookup_finish, if_neg hother]
    exact hlearns.summaries other found (by rwa [summaries_begin])

mutual

/-- A consistent checker that gives a summary learns and stays consistent. -/
theorem Asks.keeps : ∀ {checker later : Checker} {symbol : ScriptSymbol} {effects : Effects},
    Asks checker symbol effects later → checker.Consistent →
    later.Consistent ∧ checker.Learns later
  | checker, _, _, _, .remembered _, hchecker => ⟨hchecker, .refl checker⟩
  | checker, _, _, _, .unknown _ _, hchecker => ⟨hchecker.graph _, checker.learns_graph _⟩
  | _, _, _, _, .summarized hnone hflow hnodes, hchecker => by
    obtain ⟨hmiddle, hlearns⟩ := hnodes.keeps (hchecker.begin hnone hflow)
    have hpending := hlearns.pending.trans (pending_begin _ _)
    exact ⟨hmiddle.finish hpending _, learns_finish hnone hlearns _⟩

/-- A consistent checker that gives the effects of nodes learns and stays consistent. -/
theorem AsksAll.keeps : ∀ {checker later : Checker} {nodes : List FlowNode} {table : List Effects},
    AsksAll checker nodes table later → checker.Consistent →
    later.Consistent ∧ checker.Learns later
  | checker, _, _, _, .nil, hchecker => ⟨hchecker, .refl checker⟩
  | _, _, _, _, .own _ hrest, hchecker => hrest.keeps hchecker
  | _, _, _, _, .call _ hfirst hrest, hchecker => by
    obtain ⟨hmiddle, hlearns⟩ := hfirst.keeps hchecker
    obtain ⟨hlater, hlearns'⟩ := hrest.keeps hmiddle
    exact ⟨hlater, hlearns.trans hlearns'⟩

end

/-- Fewer scripts are being summarised than are known while one with a graph is not. -/
theorem Consistent.length_pending_lt (h : checker.Consistent) {id : ScriptId} {graph : FlowGraph}
    (hnone : checker.remembered? id = none) (hflow : checker.flow? id = some (.ok graph)) :
    checker.pending.length < checker.scripts.length := by
  have hbegin := h.begin hnone hflow
  have hsubset : (checker.begin id).pending ⊆ checker.scripts.map CompiledScript.id := by
    intro other hother
    obtain ⟨found, hfound⟩ := hbegin.pending_flow other hother
    rw [(checker.agrees_begin id).flow?] at hfound
    obtain ⟨script, hscript, -⟩ := flow?_eq_some_iff.mp hfound
    have hid : script.id = other := by simpa using List.find?_some hscript
    exact hid ▸ List.mem_map_of_mem (List.mem_of_find?_eq_some hscript)
  have hlength := (List.subperm_of_subset hbegin.pending_nodup hsubset).length_le
  rw [pending_begin, List.length_cons, List.length_map] at hlength
  omega

/-- A checker that is asked for nodes in order by a way to ask for callees follows the rules if that
way does. -/
private theorem asksAll_nodeTable {callee : ScriptSymbol → Query Effects}
    (invariant : Checker → Prop)
    (hlearns : ∀ checker later : Checker, checker.Learns later → invariant checker →
      invariant later)
    (hcallee : ∀ symbol checker, checker.Consistent → invariant checker →
      Asks checker symbol (callee symbol checker).1 (callee symbol checker).2)
    (nodes : List FlowNode) {checker : Checker} (hchecker : checker.Consistent)
    (hinvariant : invariant checker) :
    AsksAll checker nodes (Query.nodeTable callee nodes checker).1
      (Query.nodeTable callee nodes checker).2 := by
  induction nodes generalizing checker with
  | nil => exact .nil
  | cons node rest ih =>
    change AsksAll checker (node :: rest)
      ((Query.nodeEffects callee node checker).1 ::
        (Query.nodeTable callee rest (Query.nodeEffects callee node checker).2).1)
      (Query.nodeTable callee rest (Query.nodeEffects callee node checker).2).2
    cases hnode : node.callee? with
    | none =>
      rw [Query.nodeEffects_of_callee?_eq_none hnode]
      exact .own hnode (ih hchecker hinvariant)
    | some symbol =>
      rw [Query.nodeEffects_of_callee? hnode]
      have hfirst := hcallee symbol checker hchecker hinvariant
      obtain ⟨hmiddle, hmore⟩ := hfirst.keeps hchecker
      exact .call hnode hfirst (ih hmiddle (hlearns _ _ hmore hinvariant))

/-- A summary within a depth is remembered, missing, or found from the nodes within one less. -/
theorem effectsWithin_eq (checker : Checker) (depth : Nat) (symbol : ScriptSymbol) :
    Query.effectsWithin depth symbol checker =
      match checker.remembered? symbol.id with
      | some effects => (effects, checker)
      | none =>
        match (Query.graph symbol.id checker).1 with
        | some (.ok graph) =>
          match depth with
          | 0 => (.none, (Query.graph symbol.id checker).2)
          | depth + 1 =>
            let (table, later) :=
              Query.nodeTable (Query.effectsWithin depth) graph.nodes (checker.begin symbol.id)
            (graph.summary table, later.finish symbol.id (graph.summary table))
        | some (.error _) | none => (.none, (Query.graph symbol.id checker).2) := by
  unfold Query.effectsWithin
  rw [Query.bind_apply]
  change (match checker.remembered? symbol.id with
    | some effects => (pure effects : Query Effects)
    | none => _) checker = _
  cases checker.remembered? symbol.id with
  | some effects => rfl
  | none =>
    simp only [Query.bind_apply]
    cases (Query.graph symbol.id checker).1 with
    | none => rfl
    | some outcome =>
      cases outcome with
      | error error => rfl
      | ok graph => cases depth <;> rfl

/-- A checker that is asked for a summary within a depth follows the rules of asking, if together
with the summaries that are being found the depth allows for all known scripts. -/
theorem asks_effectsWithin (depth : Nat) (symbol : ScriptSymbol) {checker : Checker}
    (hchecker : checker.Consistent)
    (hdepth : checker.scripts.length ≤ depth + checker.pending.length) :
    Asks checker symbol (Query.effectsWithin depth symbol checker).1
      (Query.effectsWithin depth symbol checker).2 := by
  induction depth generalizing symbol checker with
  | zero =>
    rw [effectsWithin_eq, hchecker.graph_fst]
    cases hfound : checker.remembered? symbol.id with
    | some effects => exact .remembered hfound
    | none =>
      have hflow : ∀ graph, checker.flow? symbol.id ≠ some (.ok graph) := by
        intro graph hflow
        have hlt := hchecker.length_pending_lt hfound hflow
        omega
      dsimp only
      split <;> exact .unknown hfound hflow
  | succ depth ih =>
    rw [effectsWithin_eq, hchecker.graph_fst]
    cases hfound : checker.remembered? symbol.id with
    | some effects => exact .remembered hfound
    | none =>
      dsimp only
      split
      · next graph hflow =>
        refine .summarized hfound hflow (asksAll_nodeTable (fun checker =>
          checker.scripts.length ≤ depth + checker.pending.length) ?_ ?_ _ ?_ ?_)
        · intro checker later hlearns hbound
          rwa [hlearns.scripts, hlearns.pending]
        · exact fun symbol checker hchecker hbound => ih symbol hchecker hbound
        · exact hchecker.begin hfound hflow
        · rw [(checker.agrees_begin _).scripts, pending_begin, List.length_cons]
          omega
      · next hflow => exact .unknown hfound (by simp [hflow])
      · next hflow => exact .unknown hfound (by simp [hflow])

/-- A checker that is asked for a summary follows the rules of asking. -/
theorem asks_effects (symbol : ScriptSymbol) {checker : Checker} (hchecker : checker.Consistent) :
    Asks checker symbol (Query.effects symbol checker).1 (Query.effects symbol checker).2 :=
  asks_effectsWithin checker.scripts.length symbol hchecker (Nat.le_add_right ..)

/-- A checker that is asked for the effects of nodes follows the rules of asking. -/
theorem asksAll_nodeTable_effects (nodes : List FlowNode) {checker : Checker}
    (hchecker : checker.Consistent) :
    AsksAll checker nodes (Query.nodeTable Query.effects nodes checker).1
      (Query.nodeTable Query.effects nodes checker).2 :=
  asksAll_nodeTable (fun _ => True) (fun _ _ _ _ => trivial)
    (fun symbol _ hchecker _ => asks_effects symbol hchecker) nodes hchecker trivial

end Checker

end ScriptBackend

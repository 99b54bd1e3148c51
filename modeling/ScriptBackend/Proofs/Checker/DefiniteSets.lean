import ScriptBackend.Proofs.Checker.Gathering
import ScriptBackend.Proofs.Checker.Independence
import ScriptBackend.Proofs.Flow.Passages

/-!
# What a script sets on some way and on every way

A summary sets what some instruction of the script sets on every outcome of that instruction. It
does not ask whether control always passes such an instruction: a pointer that is set in one arm of
a branch is set by the summary, although control may return by the other arm. Where an instruction
sets the pointer before control can divide, every way to a return passes it.
-/

namespace ScriptBackend

namespace FlowGraph

/-- A walk from the entry of a graph to a return. -/
structure ReturnsBy (graph : FlowGraph) (walk : List Nat) : Prop where
  head : walk.head? = some entry
  chain : walk.IsChain graph.Adjacent
  last : ∃ last, walk.getLast? = some last ∧ (graph.node last).opcode? = some .leave

variable {script : CompiledScript} {contracts : Contracts} {graph : FlowGraph}

/-- Control goes from the entry to the first instruction. -/
private theorem eq_of_adjacent_entry (h : build script contracts = .ok graph) {target : Nat}
    (hadjacent : graph.Adjacent entry target) : target = 1 := by
  obtain ⟨edge, hedge, hsource, rfl⟩ := hadjacent
  rcases (edges_build h).2.2 edge hedge with ⟨rfl, -⟩ | ⟨position, link, -, hcarries⟩
  · rfl
  · cases hcarries with
    | direct _ => cases hsource
    | into _ _ _ => cases hsource
    | out _ _ hnode =>
      have hafter := lt_of_node_eq_validated h hnode
      simp only [entry] at hsource
      omega

/-- From the entry, and where control only goes on, control goes to the next node, and it does not
return there. -/
private theorem next_of_goesOn (h : build script contracts = .ok graph) {position node : Nat}
    (hlt : position < script.sequence.length)
    (hgoes : ∀ earlier < position, ∀ place, script.sequence[earlier]? = some place →
      place.2.opcode.GoesOn) (hnode : node ≤ position) :
    (graph.node node).opcode? ≠ some .leave ∧
      ∀ target, graph.Adjacent node target → target = node + 1 := by
  cases node with
  | zero =>
    obtain ⟨outcomes, hnodes⟩ := exists_nodes_build h
    refine ⟨?_, fun target hadjacent => eq_of_adjacent_entry h hadjacent⟩
    rw [FlowGraph.node, hnodes]
    intro hleave
    cases hleave
  | succ earlier =>
    have hearlier : earlier < script.sequence.length := by omega
    have hplace := List.getElem?_eq_getElem hearlier
    have hon := hgoes earlier hnode _ hplace
    refine ⟨?_, fun target hadjacent => eq_of_adjacent_of_goesOn h hplace hon hadjacent⟩
    rw [node_position h hplace]
    intro hleave
    have hopcode : script.sequence[earlier].2.opcode = .leave := Option.some.inj hleave
    have hterminal := hon.1
    rw [hopcode] at hterminal
    cases hterminal

/-- A walk to a return that starts no later than an instruction before which control only goes on
passes the instruction. -/
private theorem mem_walk_of_goesOn (h : build script contracts = .ok graph) {position : Nat}
    (hlt : position < script.sequence.length)
    (hgoes : ∀ earlier < position, ∀ place, script.sequence[earlier]? = some place →
      place.2.opcode.GoesOn) (walk : List Nat) (start : Nat) (hstart : start ≤ position + 1)
    (hchain : (start :: walk).IsChain graph.Adjacent)
    (hlast : ∃ last, (start :: walk).getLast? = some last ∧
      (graph.node last).opcode? = some .leave) : position + 1 ∈ start :: walk := by
  induction walk generalizing start with
  | nil =>
    obtain ⟨last, hlast, hleave⟩ := hlast
    obtain rfl : start = last := by simpa using hlast
    by_cases heq : start = position + 1
    · exact heq ▸ List.mem_cons_self
    · exact absurd hleave (next_of_goesOn h hlt hgoes (by omega)).1
  | cons next rest ih =>
    by_cases heq : start = position + 1
    · exact heq ▸ List.mem_cons_self
    · rw [List.isChain_cons_cons] at hchain
      have hnext := (next_of_goesOn h hlt hgoes (by omega)).2 next hchain.1
      rw [List.getLast?_cons_cons] at hlast
      exact List.mem_cons_of_mem _ (ih next (by omega) hchain.2 hlast)

end FlowGraph

namespace Checker

/-- Whether no script calls itself, directly or through others. -/
def Acyclic (checker : Checker) : Prop := ∀ id, ¬Relation.TransGen checker.Calls id id

/-- Whether a checker finds that a node sets a pointer on every outcome. -/
def SetsAt (checker : Checker) (pointer : Pointer) (node : FlowNode) : Prop :=
  (Query.nodeEffects Query.effects node checker).1.definiteSet.contains (.single pointer) = true

/-- Whether every walk from the entry of a graph to a return visits a node that sets a pointer on
every outcome. -/
def AlwaysSets (checker : Checker) (graph : FlowGraph) (pointer : Pointer) : Prop :=
  ∀ walk, graph.ReturnsBy walk → ∃ node ∈ walk, checker.SetsAt pointer (graph.node node)

/-- Calls without any cycle have none through two or more scripts. -/
theorem Acyclic.noMutualCalls {checker : Checker} (h : checker.Acyclic) :
    checker.NoMutualCalls := by
  intro first second hforth hback
  rcases Relation.reflTransGen_iff_eq_or_transGen.mp hforth with heq | hcycle
  · exact heq.symm
  · exact absurd (Relation.TransGen.trans_left hcycle hback) (h first)

/-- Calls that lead to scripts of lower rank have no cycle. -/
theorem acyclic_of_rank {checker : Checker} (rank : ScriptId → Nat)
    (h : ∀ caller callee, checker.Calls caller callee → rank callee < rank caller) :
    checker.Acyclic := by
  have hless {first last : ScriptId} (hcalls : Relation.TransGen checker.Calls first last) :
      rank last < rank first := by
    induction hcalls with
    | single hcall => exact h _ _ hcall
    | tail _ hcall ih => exact Nat.lt_trans (h _ _ hcall) ih
  exact fun id hcycle => Nat.lt_irrefl _ (hless hcycle)

/-- The summary of a script that calls itself nowhere follows from the meanings of its callees. -/
private theorem effects_eq_summaryBy {checker : Checker} (hacyclic : checker.Acyclic)
    {meaning : checker.Meaning} (hsettled : meaning.SettledIn checker) {symbol : ScriptSymbol}
    {graph : FlowGraph} (hflow : checker.flow? symbol.id = some (.ok graph)) :
    (Query.effects symbol checker).1 = graph.summaryBy checker.contracts fun callee =>
      meaning.effects callee.id := by
  rw [hsettled.effects_fst, meaning.effects_eq, hflow]
  apply FlowGraph.summaryBy_congr
  intro node hnode callee hcallee
  have hcalls : checker.Calls symbol.id callee.id :=
    (calls_iff hflow).mpr ⟨node, hnode, callee, hcallee, rfl⟩
  have hne : callee.id ≠ symbol.id := by
    intro heq
    rw [heq] at hcalls
    exact hacyclic symbol.id (.single hcalls)
  rw [if_neg hne]

/-- A summary sets a pointer exactly if an instruction of the script does. -/
private theorem set_contains_iff {checker : Checker} (hacyclic : checker.Acyclic)
    {meaning : checker.Meaning} (hsettled : meaning.SettledIn checker) {symbol : ScriptSymbol}
    {graph : FlowGraph} (hflow : checker.flow? symbol.id = some (.ok graph)) (pointer : Pointer) :
    (Query.effects symbol checker).1.set.contains (.single pointer) = true ↔
      ∃ location instruction, .code location instruction ∈ graph.nodes ∧
        checker.SetsAt pointer (.code location instruction) := by
  let found (node : FlowNode) : Effects :=
    node.effectsBy checker.contracts fun callee => meaning.effects callee.id
  have hsets (node : FlowNode) : checker.SetsAt pointer node ↔
      (Aspect.sets pointer.bit).holds (found node) := by
    unfold SetsAt
    rw [hsettled.nodeEffects_fst, PointerSet.contains_single_iff]
    rfl
  have hzip : graph.nodes.zip (graph.nodes.map found) =
      graph.nodes.map fun node => (node, found node) := by
    have hboth : (graph.nodes.map id).zip (graph.nodes.map found) =
        graph.nodes.map fun node => (id node, found node) := List.zip_map'
    simpa using hboth
  have hsummary := (Aspect.sets pointer.bit).holds_summary_iff graph (graph.nodes.map found)
    (List.length_map found).symm
  rw [effects_eq_summaryBy hacyclic hsettled hflow, PointerSet.contains_single_iff]
  refine hsummary.trans ?_
  rw [hzip]
  constructor
  · rintro ⟨entry, hentry, hcounts, hholds⟩
    obtain ⟨node, hnode, rfl⟩ := List.mem_map.mp hentry
    cases node with
    | entry => exact absurd hholds (Aspect.sets pointer.bit).not_holds_none
    | validated pointers => cases hcounts
    | code location instruction => exact ⟨location, instruction, hnode, (hsets _).mpr hholds⟩
  · rintro ⟨location, instruction, hnode, hset⟩
    exact ⟨_, List.mem_map_of_mem hnode, rfl, (hsets _).mp hset⟩

/-- A summary sets a pointer exactly if some instruction of the script sets it on every outcome,
whether or not control always passes the instruction. Where it stands before every instruction at
which control can divide or end, every walk from the entry to a return visits a node that sets the
pointer. -/
theorem effects_set_somewhere (contracts : Contracts) (scripts : List CompiledScript)
    (hacyclic : ((new contracts).addAll scripts).Acyclic) (symbol : ScriptSymbol)
    {graph : FlowGraph}
    (hflow : ((new contracts).addAll scripts).flow? symbol.id = some (.ok graph))
    (pointer : Pointer) :
    let checker := (new contracts).addAll scripts
    ((Query.effects symbol checker).1.set.contains (.single pointer) = true ↔
      ∃ location instruction, .code location instruction ∈ graph.nodes ∧
        checker.SetsAt pointer (.code location instruction)) ∧
    ∀ (script : CompiledScript) (position : Nat) (place : Location × Instruction),
      checker.script? symbol.id = some script → script.sequence[position]? = some place →
      (∀ earlier < position, ∀ other, script.sequence[earlier]? = some other →
        other.2.opcode.GoesOn) →
      checker.SetsAt pointer (.code place.1 place.2) → checker.AlwaysSets graph pointer := by
  intro checker
  obtain ⟨meaning⟩ := nonempty_meaning hacyclic.noMutualCalls
  refine ⟨set_contains_iff hacyclic (settledIn_addAll_new meaning) hflow pointer, ?_⟩
  intro script position place hscript hplace hgoes hset walk hwalk
  obtain ⟨known, hknown, hbuild⟩ := flow?_eq_some_iff.mp hflow
  obtain rfl : known = script := Option.some.inj (hknown.symm.trans hscript)
  have hlt := (List.getElem?_eq_some_iff.mp hplace).1
  obtain ⟨rest, rfl⟩ : ∃ rest, walk = FlowGraph.entry :: rest := by
    have hhead := hwalk.head
    cases walk with
    | nil => cases hhead
    | cons first rest => exact ⟨rest, by rw [Option.some.inj hhead]⟩
  refine ⟨position + 1, ?_, ?_⟩
  · exact FlowGraph.mem_walk_of_goesOn hbuild hlt hgoes rest _ (Nat.zero_le _) hwalk.chain
      hwalk.last
  · rw [FlowGraph.node_position hbuild hplace]
    exact hset

/-- A command that sets a pointer. -/
private def restore : Instruction := .onSymbol .command (.command ⟨"p_restore", [], []⟩)

/-- The contract of the command. -/
private def restoreContracts : Contracts := ⟨[("p_restore", { set := .single .pActivePlayer })]⟩

/-- A script that restores a pointer. -/
private def healScript : CompiledScript where
  symbol := ⟨.proc, "heal", [], []⟩
  blocks := [⟨⟨"entry"⟩, [restore, ⟨.leave, .none, none⟩]⟩]

/-- A script that has another one restore a pointer before it branches. -/
private def visitScript : CompiledScript where
  symbol := ⟨.proc, "visit", [], []⟩
  blocks := [
    ⟨⟨"entry"⟩, [.onSymbol .gosub (.script ⟨.proc, "heal", [], []⟩), .pushInt 1, .pushInt 1,
      .branchTo .branchEquals ⟨"end"⟩]⟩,
    ⟨⟨"end"⟩, [⟨.leave, .none, none⟩]⟩]

/-- The calls of the two scripts have no cycle. -/
private theorem acyclic_visit :
    ((new restoreContracts).addAll [visitScript, healScript]).Acyclic := by
  refine acyclic_of_rank (fun id => if id = visitScript.id then 1 else 0) ?_
  intro caller callee hcalls
  obtain ⟨script, hscript, rfl, symbol, hsymbol, rfl⟩ := exists_of_calls_addAll_new hcalls
  rcases List.mem_pair.mp hscript with rfl | rfl
  · have hcallees : visitScript.instructions.filterMap Instruction.callee? =
        [healScript.symbol] := rfl
    rw [hcallees, List.mem_singleton] at hsymbol
    rw [hsymbol]
    decide +kernel
  · exact absurd hsymbol List.not_mem_nil

/-- The graph of a script. -/
private def graphOf (script : CompiledScript) : FlowGraph :=
  match FlowGraph.build script restoreContracts with
  | .ok graph => graph
  | .error _ => {}

theorem effects_set_somewhere_visit :
    let checker := (new restoreContracts).addAll [visitScript, healScript]
    checker.Acyclic ∧ checker.flow? visitScript.id = some (.ok (graphOf visitScript)) ∧
      (Query.effects visitScript.symbol checker).1.set.contains (.single .pActivePlayer) = true ∧
      checker.AlwaysSets (graphOf visitScript) .pActivePlayer := by
  intro checker
  have hflow : checker.flow? visitScript.id = some (.ok (graphOf visitScript)) := by
    decide +kernel
  obtain ⟨hset, halways⟩ := effects_set_somewhere restoreContracts [visitScript, healScript]
    acyclic_visit visitScript.symbol hflow .pActivePlayer
  have hcall : checker.SetsAt .pActivePlayer
      (.code ⟨0, 0⟩ (.onSymbol .gosub (.script healScript.symbol))) := by
    unfold SetsAt
    decide +kernel
  refine ⟨acyclic_visit, hflow, hset.mpr ⟨_, _, by decide +kernel, hcall⟩, ?_⟩
  refine halways visitScript 0 _ (by decide +kernel) rfl ?_ hcall
  intro earlier hearlier
  exact absurd hearlier (Nat.not_lt_zero _)

/-- A script that restores a pointer in one arm of a branch and returns after either arm. -/
private def halfHealScript : CompiledScript where
  symbol := ⟨.proc, "half_heal", [], []⟩
  blocks := [
    ⟨⟨"entry"⟩, [.pushInt 1, .pushInt 1, .branchTo .branchEquals ⟨"if_true_0"⟩,
      .branchTo .branch ⟨"if_end_0"⟩]⟩,
    ⟨⟨"if_true_0"⟩, [restore, .branchTo .branch ⟨"if_end_0"⟩]⟩,
    ⟨⟨"if_end_0"⟩, [⟨.leave, .none, none⟩]⟩]

/-- Control may return from the script without restoring the pointer. -/
private theorem returnsBy_halfHeal :
    (graphOf halfHealScript).ReturnsBy [0, 1, 2, 3, 4, 7] where
  head := rfl
  chain := by
    unfold Digraph.Adjacent
    decide +kernel
  last := ⟨7, rfl, by decide +kernel⟩

theorem not_always_sets_halfHeal :
    ¬∀ (contracts : Contracts) (scripts : List CompiledScript) (symbol : ScriptSymbol)
      (graph : FlowGraph) (pointer : Pointer), (scripts.map CompiledScript.id).Nodup →
      ((new contracts).addAll scripts).Acyclic →
      ((new contracts).addAll scripts).flow? symbol.id = some (.ok graph) →
      (Query.effects symbol ((new contracts).addAll scripts)).1.set.contains (.single pointer) =
        true → ((new contracts).addAll scripts).AlwaysSets graph pointer := by
  intro h
  have hacyclic : ((new restoreContracts).addAll [halfHealScript]).Acyclic := by
    refine acyclic_of_rank (fun _ => 0) fun caller callee hcalls => ?_
    obtain ⟨script, hscript, -, symbol, hsymbol, -⟩ := exists_of_calls_addAll_new hcalls
    rw [List.mem_singleton.mp hscript] at hsymbol
    exact absurd hsymbol List.not_mem_nil
  have halways := h restoreContracts [halfHealScript] halfHealScript.symbol (graphOf halfHealScript)
    .pActivePlayer (by decide +kernel) hacyclic (by decide +kernel) (by decide +kernel)
  obtain ⟨node, hnode, hset⟩ := halways _ returnsBy_halfHeal
  have hnone : ∀ node ∈ [0, 1, 2, 3, 4, 7], ¬((new restoreContracts).addAll [halfHealScript]).SetsAt
      .pActivePlayer ((graphOf halfHealScript).node node) := by
    unfold SetsAt
    decide +kernel
  exact hnone node hnode hset

end Checker

end ScriptBackend

import Mathlib.Data.List.Induction
import Mathlib.Data.List.Nodup
import ScriptBackend.Proofs.Checker.Repeating

/-!
# Lifetimes of checkers

To find a summary a checker asks for the summaries of the scripts that are called, and these ask for
further ones. The rules of this search are given here without any limit on how deep summaries nest,
together with the scripts that are summarised on the way. They hold also where a script was replaced
after its graph was built.

No script is summarised while it is being summarised, or again once it was, so the search ends,
nests no deeper than there are known scripts, and leaves behind what was being summarised as it
found it. Over all that is ever done with a checker, each script is summarised at most once.
-/

namespace ScriptBackend

namespace Checker

/-- The identities of the known scripts, in order. -/
def ids (checker : Checker) : List ScriptId := checker.scripts.map CompiledScript.id

/-- The identities of the scripts that were summarised, the latest first. -/
def summarizedIds (checker : Checker) : List ScriptId := checker.summaries.map Prod.fst

mutual

/-- How a checker finds a summary, whatever depth that takes: what it answers and knows then, which
scripts it summarised on the way, in the order in which they were finished, and how deep their
summaries nested. -/
inductive Finds : Checker → ScriptSymbol → Effects → Checker → List ScriptId → Nat → Prop where
  | remembered {checker : Checker} {symbol : ScriptSymbol} {effects : Effects}
      (hfound : checker.remembered? symbol.id = some effects) :
      Finds checker symbol effects checker [] 0
  | missing {checker : Checker} {symbol : ScriptSymbol}
      (hnone : checker.remembered? symbol.id = none)
      (hgraph : ∀ graph, (Query.graph symbol.id checker).1 ≠ some (.ok graph)) :
      Finds checker symbol .none (Query.graph symbol.id checker).2 [] 0
  | summarized {checker later : Checker} {symbol : ScriptSymbol} {graph : FlowGraph}
      {table : List Effects} {finished : List ScriptId} {depth : Nat}
      (hnone : checker.remembered? symbol.id = none)
      (hgraph : (Query.graph symbol.id checker).1 = some (.ok graph))
      (hnodes : FindsAll (checker.begin symbol.id) graph.nodes table later finished depth) :
      Finds checker symbol (graph.summary table) (later.finish symbol.id (graph.summary table))
        (finished ++ [symbol.id]) (depth + 1)

/-- How a checker finds the effects of nodes in order. -/
inductive FindsAll :
    Checker → List FlowNode → List Effects → Checker → List ScriptId → Nat → Prop where
  | nil {checker : Checker} : FindsAll checker [] [] checker [] 0
  | own {checker later : Checker} {node : FlowNode} {nodes : List FlowNode} {table : List Effects}
      {finished : List ScriptId} {depth : Nat} (hcallee : node.callee? = none)
      (hrest : FindsAll checker nodes table later finished depth) :
      FindsAll checker (node :: nodes) (node.ownEffects checker.contracts :: table) later finished
        depth
  | call {checker middle later : Checker} {node : FlowNode} {nodes : List FlowNode}
      {symbol : ScriptSymbol} {effects : Effects} {table : List Effects}
      {first others : List ScriptId} {depth depth' : Nat} (hcallee : node.callee? = some symbol)
      (hfirst : Finds checker symbol effects middle first depth)
      (hrest : FindsAll middle nodes table later others depth') :
      FindsAll checker (node :: nodes) (effects :: table) later (first ++ others) (max depth depth')

end

/-- The effects of nodes are those of the first, and then those of the rest. -/
private theorem nodeTable_cons (callee : ScriptSymbol → Query Effects) (node : FlowNode)
    (rest : List FlowNode) (checker : Checker) :
    Query.nodeTable callee (node :: rest) checker =
      let (effects, middle) := Query.nodeEffects callee node checker
      let (table, later) := Query.nodeTable callee rest middle
      (effects :: table, later) := rfl

mutual

/-- A summary is found as the rules say within every depth that allows for the nesting. -/
theorem Finds.effectsWithin_eq : ∀ {checker later : Checker} {symbol : ScriptSymbol}
    {effects : Effects} {finished : List ScriptId} {depth : Nat},
    Finds checker symbol effects later finished depth → ∀ {limit : Nat}, depth ≤ limit →
    Query.effectsWithin limit symbol checker = (effects, later)
  | checker, _, symbol, _, _, _, .remembered hfound, limit, _ => by
    rw [Checker.effectsWithin_eq, hfound]
  | checker, _, symbol, _, _, _, .missing hnone hgraph, limit, _ => by
    rw [Checker.effectsWithin_eq, hnone]
    dsimp only
    split
    · next graph heq => exact absurd heq (hgraph graph)
    · rfl
    · rfl
  | checker, _, symbol, _, _, _, .summarized hnone hgraph hnodes, limit, hlimit => by
    obtain ⟨limit, rfl⟩ := Nat.exists_eq_add_of_le' (Nat.le_of_add_left_le hlimit)
    rw [Checker.effectsWithin_eq, hnone, hgraph]
    dsimp only
    rw [hnodes.nodeTable_eq (Nat.le_of_add_le_add_right hlimit)]

/-- The effects of nodes are found as the rules say within every depth that allows for it. -/
theorem FindsAll.nodeTable_eq : ∀ {checker later : Checker} {nodes : List FlowNode}
    {table : List Effects} {finished : List ScriptId} {depth : Nat},
    FindsAll checker nodes table later finished depth → ∀ {limit : Nat}, depth ≤ limit →
    Query.nodeTable (Query.effectsWithin limit) nodes checker = (table, later)
  | _, _, _, _, _, _, .nil, _, _ => rfl
  | _, _, _, _, _, _, .own hcallee hrest, limit, hlimit => by
    rw [nodeTable_cons, Query.nodeEffects_of_callee?_eq_none hcallee]
    dsimp only
    rw [hrest.nodeTable_eq hlimit]
  | _, _, _, _, _, _, .call hcallee hfirst hrest, limit, hlimit => by
    rw [Nat.max_le] at hlimit
    rw [nodeTable_cons, Query.nodeEffects_of_callee? hcallee, hfirst.effectsWithin_eq hlimit.1]
    dsimp only
    rw [hrest.nodeTable_eq hlimit.2]

end

variable {checker later : Checker}

/-- Finding a summary is a question. -/
theorem Finds.extends {symbol : ScriptSymbol} {effects : Effects} {finished : List ScriptId}
    {depth : Nat} (h : Finds checker symbol effects later finished depth) :
    checker.Extends later := by
  have hextends := extends_effectsWithin depth symbol checker
  rwa [h.effectsWithin_eq (Nat.le_refl depth)] at hextends

/-- Finding the effects of nodes learns only. -/
theorem FindsAll.extends : ∀ {checker later : Checker} {nodes : List FlowNode}
    {table : List Effects} {finished : List ScriptId} {depth : Nat},
    FindsAll checker nodes table later finished depth → checker.Extends later
  | checker, _, _, _, _, _, .nil => .refl checker
  | _, _, _, _, _, _, .own _ hrest => hrest.extends
  | _, _, _, _, _, _, .call _ hfirst hrest => hfirst.extends.trans hrest.extends

/-- Whether a checker keeps its books: known scripts are different, and what is being summarised or
was summarised are different known scripts. -/
structure Sound (checker : Checker) : Prop where
  ids_nodup : checker.ids.Nodup
  nodup : (checker.pending ++ checker.summarizedIds).Nodup
  known : checker.pending ++ checker.summarizedIds ⊆ checker.ids

/-- A script that a flow is answered for is known. -/
private theorem mem_ids_of_graph {id : ScriptId} {outcome : Except FlowError FlowGraph}
    (h : (Query.graph id checker).1 = some outcome) : id ∈ checker.ids := by
  rw [Query.graph_fst] at h
  obtain ⟨script, hscript, -⟩ := Option.map_eq_some_iff.mp h
  have hid : script.id = id := by simpa using List.find?_some hscript
  exact hid ▸ List.mem_map_of_mem (List.mem_of_find?_eq_some hscript)

/-- A script that is not remembered is not among those that are or were summarised. -/
private theorem not_mem_of_remembered? {id : ScriptId} (h : checker.remembered? id = none) :
    id ∉ checker.pending ++ checker.summarizedIds := by
  obtain ⟨hsummary, hpending⟩ := remembered?_eq_none_iff.mp h
  rw [List.lookup_eq_none_iff] at hsummary
  rw [List.mem_append, not_or]
  refine ⟨hpending, fun hmem => ?_⟩
  obtain ⟨entry, hentry, rfl⟩ := List.mem_map.mp hmem
  simpa using hsummary entry hentry

/-- A checker has as many identities as known scripts. -/
private theorem length_ids (checker : Checker) : checker.ids.length = checker.scripts.length :=
  List.length_map _

namespace Sound

/-- No more scripts are being summarised than are known. -/
theorem length_pending_le (h : checker.Sound) :
    checker.pending.length ≤ checker.scripts.length := by
  have hnodup : checker.pending.Nodup := (List.nodup_append.mp h.nodup).1
  have hsubset : checker.pending ⊆ checker.ids := fun _ hmem =>
    h.known (List.mem_append_left _ hmem)
  rw [← length_ids]
  exact (List.subperm_of_subset hnodup hsubset).length_le

/-- Asking for a flow keeps the books. -/
theorem graph (h : checker.Sound) (id : ScriptId) : (Query.graph id checker).2.Sound := by
  obtain ⟨graphs, hgraphs⟩ := checker.graph_snd id
  rw [hgraphs]
  exact ⟨h.ids_nodup, h.nodup, h.known⟩

/-- Beginning to summarise a script that is not remembered keeps the books. -/
theorem begin (h : checker.Sound) {id : ScriptId} {outcome : Except FlowError FlowGraph}
    (hnone : checker.remembered? id = none) (hgraph : (Query.graph id checker).1 = some outcome) :
    (checker.begin id).Sound := by
  have hids : (checker.begin id).ids = checker.ids :=
    congrArg (List.map CompiledScript.id) (checker.agrees_begin id).scripts
  have hall : (checker.begin id).pending ++ (checker.begin id).summarizedIds =
      id :: (checker.pending ++ checker.summarizedIds) := by
    rw [summarizedIds, summaries_begin, pending_begin]
    rfl
  constructor
  · rw [hids]
    exact h.ids_nodup
  · rw [hall]
    exact List.nodup_cons.mpr ⟨not_mem_of_remembered? hnone, h.nodup⟩
  · rw [hall, hids]
    exact List.cons_subset.mpr ⟨mem_ids_of_graph hgraph, h.known⟩

/-- Finishing the summary that was begun last keeps the books. -/
theorem finish (h : checker.Sound) {id : ScriptId} {pending : List ScriptId}
    (hpending : checker.pending = id :: pending) (effects : Effects) :
    (checker.finish id effects).Sound := by
  have herase : (checker.finish id effects).pending = pending := by
    change checker.pending.erase id = pending
    rw [hpending, List.erase_cons_head]
  have hperm : ((checker.finish id effects).pending ++
      (checker.finish id effects).summarizedIds).Perm
      (checker.pending ++ checker.summarizedIds) := by
    rw [herase, hpending]
    exact List.perm_middle
  exact ⟨h.ids_nodup, hperm.nodup_iff.mpr h.nodup, fun _ hmem => h.known (hperm.subset hmem)⟩

end Sound

mutual

/-- A summary that is found keeps the books; the scripts that were summarised for it are added to
them, and no more summaries nest than there are known scripts that are not being summarised. -/
theorem Finds.keeps : ∀ {checker later : Checker} {symbol : ScriptSymbol} {effects : Effects}
    {finished : List ScriptId} {depth : Nat},
    Finds checker symbol effects later finished depth → checker.Sound →
    later.Sound ∧ later.summarizedIds = finished.reverse ++ checker.summarizedIds ∧
      checker.pending.length + depth ≤ checker.scripts.length
  | _, _, _, _, _, _, .remembered _, hchecker => ⟨hchecker, rfl, hchecker.length_pending_le⟩
  | checker, _, symbol, _, _, _, .missing _ _, hchecker => by
    obtain ⟨graphs, hgraphs⟩ := checker.graph_snd symbol.id
    refine ⟨hchecker.graph symbol.id, ?_, hchecker.length_pending_le⟩
    rw [hgraphs]
    rfl
  | checker, _, symbol, _, _, _, .summarized hnone hgraph hnodes, hchecker => by
    obtain ⟨hmiddle, hfinished, hdepth⟩ := hnodes.keeps (hchecker.begin hnone hgraph)
    have hpending := hnodes.extends.pending.trans (checker.pending_begin symbol.id)
    rw [summarizedIds, summarizedIds, summaries_begin] at hfinished
    rw [pending_begin, List.length_cons, (checker.agrees_begin symbol.id).scripts] at hdepth
    refine ⟨hmiddle.finish hpending _, ?_, by omega⟩
    rw [List.reverse_append]
    exact congrArg (symbol.id :: ·) hfinished

/-- Finding the effects of nodes keeps the books in the same way. -/
theorem FindsAll.keeps : ∀ {checker later : Checker} {nodes : List FlowNode}
    {table : List Effects} {finished : List ScriptId} {depth : Nat},
    FindsAll checker nodes table later finished depth → checker.Sound →
    later.Sound ∧ later.summarizedIds = finished.reverse ++ checker.summarizedIds ∧
      checker.pending.length + depth ≤ checker.scripts.length
  | _, _, _, _, _, _, .nil, hchecker => ⟨hchecker, rfl, hchecker.length_pending_le⟩
  | _, _, _, _, _, _, .own _ hrest, hchecker => hrest.keeps hchecker
  | _, _, _, _, _, _, .call _ hfirst hrest, hchecker => by
    obtain ⟨hmiddle, hfinished, hdepth⟩ := hfirst.keeps hchecker
    obtain ⟨hlater, hothers, hdepth'⟩ := hrest.keeps hmiddle
    rw [hfirst.extends.pending, hfirst.extends.scripts] at hdepth'
    refine ⟨hlater, ?_, by omega⟩
    rw [hothers, hfinished, List.reverse_append, List.append_assoc]

end

/-- The effects of nodes are found if the summaries of callees are. -/
private theorem exists_findsAll (limit : Nat)
    (hcallee : ∀ (symbol : ScriptSymbol) (checker : Checker), checker.Sound →
      checker.scripts.length ≤ limit + checker.pending.length →
      ∃ effects later finished depth, Finds checker symbol effects later finished depth)
    (nodes : List FlowNode) (hchecker : checker.Sound)
    (hlimit : checker.scripts.length ≤ limit + checker.pending.length) :
    ∃ table later finished depth, FindsAll checker nodes table later finished depth := by
  induction nodes generalizing checker with
  | nil => exact ⟨_, _, _, _, .nil⟩
  | cons node rest ih =>
    cases hnode : node.callee? with
    | none =>
      obtain ⟨_, _, _, _, hrest⟩ := ih hchecker hlimit
      exact ⟨_, _, _, _, .own hnode hrest⟩
    | some symbol =>
      obtain ⟨_, middle, _, _, hfirst⟩ := hcallee symbol checker hchecker hlimit
      have hmiddle : middle.scripts.length ≤ limit + middle.pending.length := by
        rw [hfirst.extends.scripts, hfirst.extends.pending]
        exact hlimit
      obtain ⟨_, _, _, _, hrest⟩ := ih (hfirst.keeps hchecker).1 hmiddle
      exact ⟨_, _, _, _, .call hnode hfirst hrest⟩

/-- The search for a summary ends. Each nested summary leaves one known script less that is not
being summarised, so their number bounds the search. -/
theorem Sound.exists_finds (h : checker.Sound) (symbol : ScriptSymbol) :
    ∃ effects later finished depth, Finds checker symbol effects later finished depth := by
  suffices hlimit : ∀ (limit : Nat) (symbol : ScriptSymbol) (checker : Checker), checker.Sound →
      checker.scripts.length ≤ limit + checker.pending.length →
      ∃ effects later finished depth, Finds checker symbol effects later finished depth from
    hlimit checker.scripts.length symbol checker h (Nat.le_add_right _ _)
  intro limit
  induction limit with
  | zero =>
    intro symbol checker hchecker hlimit
    cases hfound : checker.remembered? symbol.id with
    | some effects => exact ⟨_, _, _, _, .remembered hfound⟩
    | none =>
      refine ⟨_, _, _, _, .missing hfound fun graph hgraph => ?_⟩
      -- one more script being summarised would be one too many
      have hbegin := (hchecker.begin hfound hgraph).length_pending_le
      rw [pending_begin, List.length_cons, (checker.agrees_begin symbol.id).scripts] at hbegin
      omega
  | succ limit ih =>
    intro symbol checker hchecker hlimit
    cases hfound : checker.remembered? symbol.id with
    | some effects => exact ⟨_, _, _, _, .remembered hfound⟩
    | none =>
      by_cases hgraph : ∃ graph, (Query.graph symbol.id checker).1 = some (.ok graph)
      · obtain ⟨graph, hgraph⟩ := hgraph
        have hbegin : (checker.begin symbol.id).scripts.length ≤
            limit + (checker.begin symbol.id).pending.length := by
          rw [pending_begin, List.length_cons, (checker.agrees_begin symbol.id).scripts]
          omega
        obtain ⟨_, _, _, _, hnodes⟩ :=
          exists_findsAll limit ih graph.nodes (hchecker.begin hfound hgraph) hbegin
        exact ⟨_, _, _, _, .summarized hfound hgraph hnodes⟩
      · exact ⟨_, _, _, _, .missing hfound fun graph heq => hgraph ⟨graph, heq⟩⟩

/-- What the search finds is what the checker answers and knows then. -/
theorem Finds.effects_eq {symbol : ScriptSymbol} {effects : Effects} {finished : List ScriptId}
    {depth : Nat} (h : Finds checker symbol effects later finished depth)
    (hchecker : checker.Sound) : Query.effects symbol checker = (effects, later) := by
  obtain ⟨-, -, hdepth⟩ := h.keeps hchecker
  exact h.effectsWithin_eq (Nat.le_of_add_left_le hdepth)

/-- The states that a checker gets to while it answers questions, each with the scripts that were
summarised on the way: it looks up flows, begins to summarise scripts and finds summaries. -/
inductive Proceeds (checker : Checker) : List ScriptId → Checker → Prop where
  | here : Proceeds checker [] checker
  | graph {state : Checker} {finished : List ScriptId} (h : Proceeds checker finished state)
      (id : ScriptId) : Proceeds checker finished (Query.graph id state).2
  | begin {state : Checker} {finished : List ScriptId} {id : ScriptId} {graph : FlowGraph}
      (h : Proceeds checker finished state) (hnone : state.remembered? id = none)
      (hgraph : (Query.graph id state).1 = some (.ok graph)) :
      Proceeds checker finished (state.begin id)
  | find {state later : Checker} {finished more : List ScriptId} {symbol : ScriptSymbol}
      {effects : Effects} {depth : Nat} (h : Proceeds checker finished state)
      (hfind : Finds state symbol effects later more depth) :
      Proceeds checker (finished ++ more) later

namespace Proceeds

variable {state last : Checker} {finished more : List ScriptId}

/-- What a checker gets to from a state that it gets to. -/
theorem trans (h : checker.Proceeds finished state) (hlast : state.Proceeds more last) :
    checker.Proceeds (finished ++ more) last := by
  induction hlast with
  | here => simpa using h
  | graph _ id ih => exact ih.graph id
  | begin _ hnone hgraph ih => exact ih.begin hnone hgraph
  | find _ hfind ih =>
    rw [← List.append_assoc]
    exact ih.find hfind

/-- A checker keeps its books while it answers questions, and all that it summarises is added to
them. -/
theorem keeps (h : checker.Proceeds finished state) (hchecker : checker.Sound) :
    state.Sound ∧ state.summarizedIds = finished.reverse ++ checker.summarizedIds ∧
      state.scripts = checker.scripts := by
  induction h with
  | here => exact ⟨hchecker, rfl, rfl⟩
  | @graph state finished _ id ih =>
    obtain ⟨hstate, hfinished, hscripts⟩ := ih
    obtain ⟨graphs, hgraphs⟩ := state.graph_snd id
    refine ⟨hstate.graph id, ?_, ?_⟩ <;> rw [hgraphs]
    · exact hfinished
    · exact hscripts
  | @begin state finished id graph _ hnone hgraph ih =>
    obtain ⟨hstate, hfinished, hscripts⟩ := ih
    refine ⟨hstate.begin hnone hgraph, ?_, (state.agrees_begin id).scripts.trans hscripts⟩
    rw [summarizedIds, summaries_begin]
    exact hfinished
  | find _ hfind ih =>
    obtain ⟨hstate, hfinished, hscripts⟩ := ih
    obtain ⟨hlater, hmore, -⟩ := hfind.keeps hstate
    refine ⟨hlater, ?_, hfind.extends.scripts.trans hscripts⟩
    rw [hmore, hfinished, List.reverse_append, List.append_assoc]

end Proceeds

end Checker

namespace Query

variable {α β : Type}

/-- Whether a question is answered by looking up flows and finding summaries. -/
def Works (query : Query α) : Prop :=
  ∀ checker : Checker, checker.Sound → ∃ finished, checker.Proceeds finished (query checker).2

theorem works_pure (value : α) : Works (pure value) := fun _ _ => ⟨[], .here⟩

/-- Two questions in order are answered so if each is. -/
theorem Works.bind {query : Query α} {next : α → Query β} (h : Works query)
    (hnext : ∀ value, Works (next value)) : Works (query >>= next) := by
  intro checker hchecker
  obtain ⟨first, hfirst⟩ := h checker hchecker
  obtain ⟨others, hothers⟩ := hnext (query checker).1 _ (hfirst.keeps hchecker).1
  exact ⟨first ++ others, hfirst.trans hothers⟩

theorem works_graph (id : ScriptId) : Works (graph id) := fun _ _ => ⟨[], .graph .here id⟩

theorem works_effects (symbol : ScriptSymbol) : Works (effects symbol) := by
  intro checker hchecker
  obtain ⟨_, _, finished, _, hfind⟩ := hchecker.exists_finds symbol
  rw [hfind.effects_eq hchecker]
  exact ⟨_, .find .here hfind⟩

theorem works_nodeEffects (node : FlowNode) : Works (nodeEffects effects node) := by
  intro checker hchecker
  cases hnode : node.callee? with
  | none =>
    rw [nodeEffects_of_callee?_eq_none hnode]
    exact ⟨[], .here⟩
  | some symbol =>
    rw [nodeEffects_of_callee? hnode]
    exact works_effects symbol checker hchecker

theorem works_nodeTable (nodes : List FlowNode) : Works (nodeTable effects nodes) := by
  induction nodes with
  | nil => exact works_pure []
  | cons node rest ih =>
    exact (works_nodeEffects node).bind fun effects => ih.bind fun table =>
      works_pure (effects :: table)

/-- A question about all nodes of a script is answered so. -/
theorem works_overNodes (id : ScriptId) (unknown : α) (failed : FlowError → α)
    (answer : FlowGraph → List Effects → α) : Works (overNodes id unknown failed answer) := by
  refine (works_graph id).bind fun outcome => ?_
  cases outcome with
  | none => exact works_pure unknown
  | some outcome =>
    cases outcome with
    | error error => exact works_pure (failed error)
    | ok graph =>
      exact (works_nodeTable graph.nodes).bind fun table => works_pure (answer graph table)

theorem works_checkEach (scripts : List CompiledScript) : Works (checkEach scripts) := by
  induction scripts with
  | nil => exact works_pure _
  | cons script rest ih =>
    have hfirst : Works (check script.symbol) := works_overNodes _ _ _ _
    exact hfirst.bind fun first => ih.bind fun others => works_pure (first ++ others)

end Query

/-- Every question is answered by looking up flows and finding summaries. -/
theorem Question.works (question : Question) : Query.Works question.query := by
  cases question with
  | effects symbol => exact Query.works_effects symbol
  | node node => exact Query.works_nodeEffects node
  | nodes symbol => exact Query.works_overNodes _ _ _ _
  | path symbol pointer => exact Query.works_overNodes _ _ _ _
  | sites symbol pointer => exact Query.works_overNodes _ _ _ _
  | check symbol => exact Query.works_overNodes _ _ _ _
  | checkAll => exact fun checker => Query.works_checkEach checker.scripts checker
  | graph id => exact Query.works_graph id

/-- The identity of the script that is made known, if one is. -/
def Operation.added? : Operation → Option ScriptId
  | .add script => some script.id
  | .ask _ => none

namespace Checker

variable {checker later : Checker}

/-- A script is known exactly if its identity is listed. -/
theorem mem_ids_iff {id : ScriptId} : id ∈ checker.ids ↔ (checker.script? id).isSome = true := by
  simp [ids, script?, List.find?_isSome]

/-- A script that is made known is listed last, unless one of its identity is listed before. -/
theorem ids_add (checker : Checker) (script : CompiledScript) :
    (checker.add script).ids =
      if script.id ∈ checker.ids then checker.ids else checker.ids ++ [script.id] := by
  unfold add
  by_cases hknown : script.id ∈ checker.ids
  · rw [if_pos hknown, if_pos (mem_ids_iff.mp hknown), ids, List.map_map]
    refine List.map_congr_left fun known _ => ?_
    -- a script is replaced only by one of its own identity
    rw [Function.comp_apply]
    split
    · next hid => exact hid.symm
    · rfl
  · rw [if_neg hknown, if_neg (mt mem_ids_iff.mpr hknown)]
    simp [ids]

/-- Making a script known keeps the books. -/
theorem Sound.add (h : checker.Sound) (script : CompiledScript) : (checker.add script).Sound := by
  have hpending : (checker.add script).pending = checker.pending := by
    unfold Checker.add
    split <;> rfl
  have hsummaries : (checker.add script).summarizedIds = checker.summarizedIds := by
    unfold Checker.add
    split <;> rfl
  constructor
  · rw [ids_add]
    split
    · exact h.ids_nodup
    · next hnew => exact List.nodup_append_comm.mp (List.nodup_cons.mpr ⟨hnew, h.ids_nodup⟩)
  · rw [hpending, hsummaries]
    exact h.nodup
  · rw [hpending, hsummaries, ids_add]
    split
    · exact h.known
    · exact fun _ hmem => List.mem_append_left _ (h.known hmem)

/-- A new checker has empty books. -/
theorem sound_new (contracts : Contracts) : (new contracts).Sound :=
  ⟨List.nodup_nil, List.nodup_nil, List.nil_subset _⟩

/-- What is done with a checker over its lifetime, with all scripts that are summarised then. -/
inductive Lives : Checker → List Operation → List ScriptId → Checker → Prop where
  | done {checker : Checker} : Lives checker [] [] checker
  | add {checker last : Checker} {script : CompiledScript} {rest : List Operation}
      {finished : List ScriptId} (h : Lives (checker.add script) rest finished last) :
      Lives checker (.add script :: rest) finished last
  | ask {checker last : Checker} {question : Question} {rest : List Operation}
      {first others : List ScriptId} (hask : checker.Proceeds first (checker.ask question))
      (h : Lives (checker.ask question) rest others last) :
      Lives checker (.ask question :: rest) (first ++ others) last

/-- A checker has a lifetime for all that is done with it. -/
theorem Sound.exists_lives (h : checker.Sound) (operations : List Operation) :
    ∃ finished, Lives checker operations finished (checker.performAll operations) := by
  induction operations generalizing checker with
  | nil => exact ⟨[], .done⟩
  | cons operation rest ih =>
    cases operation with
    | add script =>
      obtain ⟨finished, hrest⟩ := ih (h.add script)
      exact ⟨finished, .add hrest⟩
    | ask question =>
      obtain ⟨first, hfirst⟩ := question.works checker h
      rw [← ask_eq] at hfirst
      obtain ⟨others, hrest⟩ := ih (hfirst.keeps h).1
      exact ⟨first ++ others, .ask hfirst hrest⟩

/-- A checker keeps its books over its lifetime, and all scripts that are summarised are added to
them. -/
theorem Lives.keeps {operations : List Operation} {finished : List ScriptId}
    (h : Lives checker operations finished later) (hchecker : checker.Sound) :
    later.Sound ∧ later.summarizedIds = finished.reverse ++ checker.summarizedIds ∧
      later = checker.performAll operations := by
  induction h with
  | done => exact ⟨hchecker, rfl, rfl⟩
  | @add _ _ script _ _ _ ih =>
    obtain ⟨hlast, hfinished, heq⟩ := ih (hchecker.add script)
    refine ⟨hlast, ?_, heq⟩
    rw [hfinished, Checker.add]
    split <;> rfl
  | ask hask _ ih =>
    obtain ⟨hmiddle, hfirst, -⟩ := hask.keeps hchecker
    obtain ⟨hlast, hothers, heq⟩ := ih hmiddle
    refine ⟨hlast, ?_, heq⟩
    rw [hothers, hfirst, List.reverse_append, List.append_assoc]

/-- The known scripts are listed in the order in which they were first made known. -/
theorem ids_performAll (contracts : Contracts) (operations : List Operation) :
    ((new contracts).performAll operations).ids =
      (operations.filterMap Operation.added?).eraseDups := by
  induction operations using List.reverseRecOn with
  | nil => rfl
  | append_singleton operations operation ih =>
    have hlast : (new contracts).performAll (operations ++ [operation]) =
        ((new contracts).performAll operations).perform operation := List.foldl_append
    rw [hlast, List.filterMap_append, List.eraseDups_append, ← ih]
    cases operation with
    | add script =>
      have hone : [Operation.add script].filterMap Operation.added? = [script.id] := rfl
      have hmem : script.id ∈ ((new contracts).performAll operations).ids ↔
          script.id ∈ operations.filterMap Operation.added? := by
        rw [ih, List.mem_eraseDups]
      refine (ids_add _ script).trans ?_
      rw [hone, List.cons_removeAll, List.nil_removeAll]
      by_cases hknown : script.id ∈ operations.filterMap Operation.added?
      · rw [if_pos (hmem.mpr hknown), if_neg (by simpa using hknown)]
        exact (List.append_nil _).symm
      · rw [if_neg (mt hmem.mp hknown), if_pos (by simpa using hknown)]
        rfl
    | ask question =>
      have hidle := pending_performAll (show (new contracts).pending = [] from rfl) operations
      have hscripts := (extends_ask hidle question).scripts
      exact (congrArg (List.map CompiledScript.id) hscripts).trans (List.append_nil _).symm

/-- A summary that is remembered stays as it is, whatever is done with a checker. -/
theorem lookup_performAll (hidle : checker.pending = []) {id : ScriptId} {effects : Effects}
    (h : checker.summaries.lookup id = some effects) (operations : List Operation) :
    (checker.performAll operations).summaries.lookup id = some effects := by
  induction operations generalizing checker with
  | nil => exact h
  | cons operation rest ih =>
    have hpending := pending_performAll hidle [operation]
    refine @ih (checker.perform operation) hpending ?_
    cases operation with
    | add script =>
      change (checker.add script).summaries.lookup id = some effects
      unfold add
      split <;> exact h
    | ask question => exact (extends_ask hidle question).summaries id effects h

/-- Whatever is done with a checker over its lifetime, also with scripts that call each other or
themselves, that have no graph or are replaced, and with calls of unknown ones: the known scripts
are listed once each, in the order in which they were first made known, and afterwards none is being
summarised. Each known script is summarised at most once, and its summary never changes. Whenever a
summary is asked for, between questions or while others are being found, the search ends with what
the checker answers, all summaries that are being found together nest no deeper than there are known
scripts, the scripts that are being summarised are the same afterwards, and no summary is
overwritten. -/
theorem summaries_bounded (contracts : Contracts) (operations : List Operation) :
    let checker := (new contracts).performAll operations
    (checker.ids = (operations.filterMap Operation.added?).eraseDups ∧ checker.ids.Nodup ∧
        ∀ id, id ∈ checker.ids ↔ (checker.script? id).isSome = true) ∧
      checker.pending = [] ∧
      (∃ finished, Lives (new contracts) operations finished checker) ∧
      (∀ finished later, Lives (new contracts) operations finished later →
        finished.Nodup ∧ finished ⊆ checker.ids) ∧
      (∀ id effects, checker.summaries.lookup id = some effects → ∀ more,
        (checker.performAll more).summaries.lookup id = some effects) ∧
      ∀ finished state, checker.Proceeds finished state → ∀ symbol,
        (∃ effects later more depth, Finds state symbol effects later more depth) ∧
        ∀ effects later more depth, Finds state symbol effects later more depth →
          Query.effects symbol state = (effects, later) ∧
          state.pending.length + depth ≤ checker.ids.length ∧
          later.pending = state.pending ∧
          ∀ id found, state.summaries.lookup id = some found →
            later.summaries.lookup id = some found := by
  intro checker
  have hpending : checker.pending = [] := pending_performAll rfl operations
  obtain ⟨finished, hlives⟩ := (sound_new contracts).exists_lives operations
  have hchecker : checker.Sound := (hlives.keeps (sound_new contracts)).1
  refine ⟨⟨ids_performAll contracts operations, hchecker.ids_nodup, fun id => mem_ids_iff⟩,
    hpending, ⟨finished, hlives⟩, ?_,
    fun id effects h more => lookup_performAll hpending h more, ?_⟩
  · intro finished later hlives
    obtain ⟨hlater, hfinished, rfl⟩ := hlives.keeps (sound_new contracts)
    have hreverse : checker.summarizedIds = finished.reverse :=
      hfinished.trans (List.append_nil _)
    have hnodup := (List.nodup_append.mp hchecker.nodup).2.1
    rw [hreverse, List.nodup_reverse] at hnodup
    refine ⟨hnodup, fun id hid => hchecker.known (List.mem_append_right _ ?_)⟩
    rw [hreverse]
    exact List.mem_reverse.mpr hid
  · intro finished state hstate symbol
    obtain ⟨hsound, -, hscripts⟩ := hstate.keeps hchecker
    refine ⟨hsound.exists_finds symbol, fun effects later more depth hfind => ?_⟩
    have hdepth := (hfind.keeps hsound).2.2
    rw [hscripts, ← length_ids] at hdepth
    exact ⟨hfind.effects_eq hsound, hdepth, hfind.extends.pending, hfind.extends.summaries⟩

end Checker

end ScriptBackend

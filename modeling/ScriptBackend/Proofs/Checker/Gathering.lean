import ScriptBackend.Proofs.Checker.Questions

/-!
# What a summary gathers

A summary requires what some node of the script requires, and sets what some instruction of it sets
on every outcome. Recursion is cut where a script is being summarised already, so the summaries of
scripts inside a cycle may be partial; but the script that was asked for gathers what all scripts
that it reaches contribute, because what a cut leaves out is gathered by the script at which it was
cut. Later summaries lie between what the script itself contributes and what it gathers that way.
-/

namespace ScriptBackend

/-- Bits that are gathered along a list. -/
theorem getLsbD_foldl_union {α : Type} (part : α → PointerSet) (counts : α → Bool)
    (xs : List α) (start : PointerSet) (bit : Nat) :
    (xs.foldl (fun set x => if counts x then set ∪ part x else set) start).bits.getLsbD bit = true ↔
      start.bits.getLsbD bit = true ∨
        ∃ x ∈ xs, counts x = true ∧ (part x).bits.getLsbD bit = true := by
  induction xs generalizing start with
  | nil => simp
  | cons x rest ih =>
    rw [List.foldl_cons, ih]
    by_cases hcounts : counts x = true
    · simp [hcounts, or_assoc]
    · simp [hcounts]

/-- A property of effects that a summary has exactly if the effects of a node have it. -/
structure Aspect where
  /-- Whether effects have the property. -/
  holds : Effects → Prop
  /-- Whether a node counts. -/
  counts : FlowNode → Bool
  /-- Instructions count. -/
  counts_code : ∀ location instruction, counts (.code location instruction) = true
  /-- An outcome does not have the property, or does not count. -/
  not_holds_outcome : ∀ pointers, counts (.validated pointers) = true →
    ¬holds (Effects.none.sets pointers)
  /-- No effects do not have the property. -/
  not_holds_none : ¬holds .none
  /-- A summary has the property if the effects of a node that counts have it. -/
  holds_summary_iff : ∀ (graph : FlowGraph) (table : List Effects),
    graph.nodes.length = table.length → (holds (graph.summary table) ↔
      ∃ entry ∈ graph.nodes.zip table, counts entry.1 = true ∧ holds entry.2)

namespace Aspect

/-- A bit of what is required. -/
def requires (bit : Nat) : Aspect where
  holds effects := effects.required.bits.getLsbD bit = true
  counts _ := true
  counts_code _ _ := rfl
  not_holds_outcome _ _ := by simp [Effects.sets, Effects.none]
  not_holds_none := by simp [Effects.none]
  holds_summary_iff graph table hlength := by
    have hfold := getLsbD_foldl_union Effects.required (fun _ => true) table ∅ bit
    have hsnd : (graph.nodes.zip table).map Prod.snd = table :=
      List.map_snd_zip (Nat.le_of_eq hlength.symm)
    have hmem : (∃ effects ∈ table, effects.required.bits.getLsbD bit = true) ↔
        ∃ entry ∈ graph.nodes.zip table, entry.2.required.bits.getLsbD bit = true := by
      conv_lhs => rw [← hsnd]
      simp only [List.mem_map, exists_exists_and_eq_and]
    simp only [if_true, true_and, PointerSet.getLsbD_empty, Bool.false_eq_true, false_or] at hfold
    simp only [FlowGraph.summary, hfold, hmem, true_and]

/-- A bit of what is set on every outcome. -/
def sets (bit : Nat) : Aspect where
  holds effects := effects.definiteSet.bits.getLsbD bit = true
  counts node := !FlowGraph.isOutcome node
  counts_code _ _ := rfl
  not_holds_outcome _ hcounts := by cases hcounts
  not_holds_none := by simp [Effects.definiteSet, Effects.none]
  holds_summary_iff graph table _ := by
    have hfold := getLsbD_foldl_union (fun entry : FlowNode × Effects => entry.2.definiteSet)
      (fun entry => !FlowGraph.isOutcome entry.1) (graph.nodes.zip table) ∅ bit
    have hset : (graph.summary table).definiteSet = (graph.nodes.zip table).foldl (fun set entry =>
        if !FlowGraph.isOutcome entry.1 then set ∪ entry.2.definiteSet else set) ∅ := by
      unfold Effects.definiteSet FlowGraph.summary
      simp only [Bool.false_eq_true, if_false, Bool.not_eq_eq_eq_not, Bool.not_true]
      congr 1
      funext set entry
      cases FlowGraph.isOutcome entry.1 <;> rfl
    rw [hset, hfold]
    simp

end Aspect

namespace Checker

/-- Whether a script reaches another one by calls through known scripts with graphs. -/
def Reaches (checker : Checker) : ScriptId → ScriptId → Prop :=
  Relation.ReflTransGen fun caller callee =>
    checker.HasGraph caller ∧ checker.HasGraph callee ∧ checker.Calls caller callee

/-- Whether an instruction of a known script has an aspect itself. -/
def Owns (checker : Checker) (aspect : Aspect) (id : ScriptId) : Prop :=
  ∃ script, checker.script? id = some script ∧ ∃ instruction ∈ script.instructions,
    aspect.holds (instruction.ownEffects checker.contracts)

/-- Whether a script reaches one that has an aspect itself. -/
def Gathers (checker : Checker) (aspect : Aspect) (id : ScriptId) : Prop :=
  ∃ other, checker.Reaches id other ∧ checker.Owns aspect other

variable {aspect : Aspect} {base checker later : Checker} {id : ScriptId} {graph : FlowGraph}
  {table : List Effects}

/-- What a script has itself is what its nodes have themselves. -/
theorem owns_iff (h : base.flow? id = some (.ok graph)) :
    base.Owns aspect id ↔ ∃ node ∈ graph.nodes, aspect.counts node = true ∧
      aspect.holds (node.ownEffects base.contracts) := by
  obtain ⟨script, hscript, hbuild⟩ := flow?_eq_some_iff.mp h
  have hcode := FlowGraph.exists_code_iff hbuild
    (fun instruction => aspect.holds (instruction.ownEffects base.contracts))
    fun instruction hholds => by
      by_contra hmarker
      rw [(Instruction.of_isMarker (by simpa using hmarker) base.contracts).2] at hholds
      exact aspect.not_holds_none hholds
  have howns : base.Owns aspect id ↔ ∃ instruction ∈ script.instructions,
      aspect.holds (instruction.ownEffects base.contracts) := by
    simp [Owns, hscript]
  rw [howns, ← hcode]
  constructor
  · rintro ⟨location, instruction, hmem, hholds⟩
    exact ⟨_, hmem, aspect.counts_code location instruction, hholds⟩
  · rintro ⟨node, hmem, hcounts, hholds⟩
    cases node with
    | entry => exact absurd hholds aspect.not_holds_none
    | validated pointers => exact absurd hholds (aspect.not_holds_outcome pointers hcounts)
    | code location instruction => exact ⟨location, instruction, hmem, hholds⟩

/-- A node that calls a script counts and has nothing itself. -/
private theorem counts_of_callee? {node : FlowNode} {symbol : ScriptSymbol}
    (h : node.callee? = some symbol) (contracts : Contracts) :
    aspect.counts node = true ∧ ¬aspect.holds (node.ownEffects contracts) := by
  cases node with
  | entry => cases h
  | validated pointers => cases h
  | code location instruction =>
    refine ⟨aspect.counts_code location instruction, ?_⟩
    have hnone : instruction.ownEffects contracts = .none :=
      Instruction.ownEffects_of_callee? h contracts
    change ¬aspect.holds (instruction.ownEffects contracts)
    rw [hnone]
    exact aspect.not_holds_none

/-- Effects are given for every node that is asked for. -/
theorem AsksAll.length_eq : ∀ {checker later : Checker} {nodes : List FlowNode}
    {table : List Effects}, AsksAll checker nodes table later → nodes.length = table.length
  | _, _, _, _, .nil => rfl
  | _, _, _, _, .own _ hrest => congrArg (· + 1) hrest.length_eq
  | _, _, _, _, .call _ _ hrest => congrArg (· + 1) hrest.length_eq

/-- Nodes that call no script are answered with their own effects. -/
theorem AsksAll.eq_ownEffects : ∀ {checker later : Checker} {nodes : List FlowNode}
    {table : List Effects}, AsksAll checker nodes table later → base.Agrees checker →
    checker.Consistent → ∀ entry ∈ nodes.zip table, entry.1.callee? = none →
      entry.2 = entry.1.ownEffects base.contracts
  | _, _, _, _, .nil, _, _, entry, hentry, _ => by cases hentry
  | _, _, _, _, .own _ hrest, hbase, hchecker, entry, hentry, hnone => by
    rcases List.mem_cons.mp hentry with rfl | hentry
    · exact congrArg (FlowNode.ownEffects · _) hbase.contracts
    · exact hrest.eq_ownEffects hbase hchecker entry hentry hnone
  | _, _, _, _, .call hcallee hfirst hrest, hbase, hchecker, entry, hentry, hnone => by
    obtain ⟨hmiddle, hlearns⟩ := hfirst.keeps hchecker
    rcases List.mem_cons.mp hentry with rfl | hentry
    · rw [hcallee] at hnone
      cases hnone
    · exact hrest.eq_ownEffects (hbase.trans hlearns.toAgrees) hmiddle entry hentry hnone

section Summary

variable (hflow : base.flow? id = some (.ok graph)) (hlength : graph.nodes.length = table.length)
  (hown : ∀ entry ∈ graph.nodes.zip table, entry.1.callee? = none →
    entry.2 = entry.1.ownEffects base.contracts)

include hflow hlength hown

/-- A summary has what the script has itself. -/
private theorem holds_summary_of_owns (h : base.Owns aspect id) :
    aspect.holds (graph.summary table) := by
  obtain ⟨node, hmem, hcounts, hholds⟩ := (owns_iff hflow).mp h
  have hfst : (graph.nodes.zip table).map Prod.fst = graph.nodes :=
    List.map_fst_zip (Nat.le_of_eq hlength)
  rw [← hfst] at hmem
  obtain ⟨entry, hentry, rfl⟩ := List.mem_map.mp hmem
  have hnone : entry.1.callee? = none := by
    by_contra hcalls
    obtain ⟨symbol, hsymbol⟩ := Option.ne_none_iff_exists'.mp hcalls
    exact (counts_of_callee? hsymbol base.contracts).2 hholds
  rw [← hown entry hentry hnone] at hholds
  exact (aspect.holds_summary_iff graph table hlength).mpr ⟨entry, hentry, hcounts, hholds⟩

/-- A summary has only what the script gathers, if the effects of its calls have only what these
gather. -/
private theorem gathers_of_holds_summary
    (hcalls : ∀ entry ∈ graph.nodes.zip table, ∀ symbol, entry.1.callee? = some symbol →
      aspect.holds entry.2 → base.HasGraph symbol.id ∧ base.Gathers aspect symbol.id)
    (h : aspect.holds (graph.summary table)) : base.Gathers aspect id := by
  obtain ⟨entry, hentry, hcounts, hholds⟩ :=
    (aspect.holds_summary_iff graph table hlength).mp h
  have hmem : entry.1 ∈ graph.nodes := (List.of_mem_zip hentry).1
  cases hcallee : entry.1.callee? with
  | none =>
    rw [hown entry hentry hcallee] at hholds
    exact ⟨id, .refl, (owns_iff hflow).mpr ⟨entry.1, hmem, hcounts, hholds⟩⟩
  | some symbol =>
    obtain ⟨hgraph, other, hreaches, howns⟩ := hcalls entry hentry symbol hcallee hholds
    have hcall : base.Calls id symbol.id :=
      (calls_iff hflow).mpr ⟨entry.1, hmem, symbol, hcallee, rfl⟩
    exact ⟨other, .head ⟨⟨graph, hflow⟩, hgraph, hcall⟩ hreaches, howns⟩

end Summary

/-- Whether every remembered summary is that of a script with a graph, is unconditional, has what
the script has itself, and has only what the script gathers. -/
def Within (base : Checker) (aspect : Aspect) (checker : Checker) : Prop :=
  ∀ id effects, checker.summaries.lookup id = some effects →
    base.HasGraph id ∧ effects.conditional = false ∧
      (base.Owns aspect id → aspect.holds effects) ∧
      (aspect.holds effects → base.Gathers aspect id)

mutual

/-- A summary is unconditional, has only what its script gathers, and has what its script has itself
unless the script is being summarised. -/
theorem Asks.within : ∀ {checker later : Checker} {symbol : ScriptSymbol} {effects : Effects},
    Asks checker symbol effects later → base.Agrees checker → checker.Consistent →
    base.Within aspect checker → base.Within aspect later ∧ effects.conditional = false ∧
      (aspect.holds effects → base.HasGraph symbol.id ∧ base.Gathers aspect symbol.id) ∧
      (base.HasGraph symbol.id → symbol.id ∉ checker.pending → base.Owns aspect symbol.id →
        aspect.holds effects)
  | _, _, _, _, .remembered hfound, _, _, hwithin => by
    refine ⟨hwithin, ?_⟩
    rcases eq_of_remembered? hfound with hfound | ⟨hpending, rfl⟩
    · obtain ⟨hgraph, hconditional, hlower, hupper⟩ := hwithin _ _ hfound
      exact ⟨hconditional, fun hholds => ⟨hgraph, hupper hholds⟩, fun _ _ => hlower⟩
    · exact ⟨rfl, fun hholds => absurd hholds aspect.not_holds_none,
        fun _ hnot => absurd hpending hnot⟩
  | checker, _, symbol, _, .unknown _ hflow, hbase, _, hwithin => by
    obtain ⟨graphs, hgraphs⟩ := checker.graph_snd symbol.id
    refine ⟨by rwa [hgraphs], rfl, fun hholds => absurd hholds aspect.not_holds_none, ?_⟩
    rintro ⟨graph, hgraph⟩
    rw [← hbase.flow?] at hgraph
    exact absurd hgraph (hflow graph)
  | checker, _, symbol, _, @Asks.summarized _ middle _ graph table hnone hflow hnodes, hbase,
      hchecker, hwithin => by
    have hbegin : base.Agrees (checker.begin symbol.id) :=
      hbase.trans (checker.agrees_begin symbol.id)
    have hconsistent := hchecker.begin hnone hflow
    rw [hbase.flow?] at hflow
    obtain ⟨hmiddle, hcalls⟩ := hnodes.within hbegin hconsistent (by
      unfold Within
      rwa [summaries_begin])
    have hown := hnodes.eq_ownEffects hbegin hconsistent
    have hlower : base.Owns aspect symbol.id → aspect.holds (graph.summary table) :=
      holds_summary_of_owns hflow hnodes.length_eq hown
    have hupper : aspect.holds (graph.summary table) → base.Gathers aspect symbol.id :=
      gathers_of_holds_summary hflow hnodes.length_eq hown hcalls
    refine ⟨?_, rfl, fun hholds => ⟨⟨graph, hflow⟩, hupper hholds⟩, fun _ _ => hlower⟩
    intro other found hfound
    rw [lookup_finish] at hfound
    split at hfound
    · next hother =>
      cases hfound
      exact hother ▸ ⟨⟨graph, hflow⟩, rfl, hlower, hupper⟩
    · exact hmiddle other found hfound

/-- The effects of a call have only what the called script gathers. -/
theorem AsksAll.within : ∀ {checker later : Checker} {nodes : List FlowNode}
    {table : List Effects}, AsksAll checker nodes table later → base.Agrees checker →
    checker.Consistent → base.Within aspect checker → base.Within aspect later ∧
      ∀ entry ∈ nodes.zip table, ∀ symbol, entry.1.callee? = some symbol →
        aspect.holds entry.2 → base.HasGraph symbol.id ∧ base.Gathers aspect symbol.id
  | _, _, _, _, .nil, _, _, hwithin => ⟨hwithin, fun entry hentry => by cases hentry⟩
  | _, _, _, _, .own hcallee hrest, hbase, hchecker, hwithin => by
    obtain ⟨hlater, hcalls⟩ := hrest.within hbase hchecker hwithin
    refine ⟨hlater, fun entry hentry symbol hsymbol => ?_⟩
    rcases List.mem_cons.mp hentry with rfl | hentry
    · rw [hcallee] at hsymbol
      cases hsymbol
    · exact hcalls entry hentry symbol hsymbol
  | _, _, _, _, .call hcallee hfirst hrest, hbase, hchecker, hwithin => by
    obtain ⟨hconsistent, hlearns⟩ := hfirst.keeps hchecker
    obtain ⟨hmiddle, -, hupper, -⟩ := hfirst.within hbase hchecker hwithin
    obtain ⟨hlater, hcalls⟩ := hrest.within (hbase.trans hlearns.toAgrees) hconsistent hmiddle
    refine ⟨hlater, fun entry hentry symbol hsymbol => ?_⟩
    rcases List.mem_cons.mp hentry with rfl | hentry
    · rw [hcallee] at hsymbol
      cases hsymbol
      exact hupper
    · exact hcalls entry hentry symbol hsymbol

end

/-- Whether a script is summarised. -/
def Summarized (checker : Checker) (id : ScriptId) : Prop :=
  ∃ effects, checker.summaries.lookup id = some effects

/-- Whether the summary of a script was found between two states of a checker. -/
def Found (checker later : Checker) (id : ScriptId) : Prop :=
  ¬checker.Summarized id ∧ later.Summarized id

/-- A summary that was found was found before or after a state in between. -/
private theorem Found.split (h : Found checker later id) (middle : Checker) :
    Found checker middle id ∨ Found middle later id := by
  by_cases hmiddle : middle.Summarized id
  · exact .inl ⟨h.1, hmiddle⟩
  · exact .inr ⟨hmiddle, h.2⟩

/-- When a summary is finished, it was found, and others were found since it began. -/
private theorem Found.of_finish {middle : Checker} {other : ScriptId} {effects : Effects}
    (h : Found checker (middle.finish id effects) other) :
    other = id ∨ Found (checker.begin id) middle other := by
  by_cases hother : other = id
  · exact .inl hother
  · refine .inr ⟨?_, ?_⟩
    · unfold Summarized
      rw [summaries_begin]
      exact h.1
    · obtain ⟨found, hfound⟩ := h.2
      rw [lookup_finish, if_neg hother] at hfound
      exact ⟨found, hfound⟩

/-- Finishing a summary keeps the others. -/
private theorem Summarized.finish {other : ScriptId} (h : checker.Summarized other)
    (id : ScriptId) (effects : Effects) : (checker.finish id effects).Summarized other := by
  obtain ⟨found, hfound⟩ := h
  by_cases hother : other = id
  · exact ⟨effects, by rw [lookup_finish, if_pos hother]⟩
  · exact ⟨found, by rw [lookup_finish, if_neg hother, hfound]⟩

/-- What was summarised or pending while a summary was being found is so when it is finished. -/
private theorem summarized_or_pending_finish {middle : Checker} {other : ScriptId}
    (effects : Effects) (h : middle.Summarized other ∨ other ∈ (checker.begin id).pending) :
    (middle.finish id effects).Summarized other ∨ other ∈ checker.pending := by
  rcases h with hfound | hpending
  · exact .inl (hfound.finish id effects)
  · rw [pending_begin] at hpending
    rcases List.mem_cons.mp hpending with rfl | hpending
    · exact .inl ⟨effects, by rw [lookup_finish, if_pos rfl]⟩
    · exact .inr hpending

mutual

/-- A script that is asked for ends up summarised unless it is being summarised, and so does every
script that a script called whose summary was found meanwhile. -/
theorem Asks.closes : ∀ {checker later : Checker} {symbol : ScriptSymbol} {effects : Effects},
    Asks checker symbol effects later → base.Agrees checker → checker.Consistent →
    (base.HasGraph symbol.id → later.Summarized symbol.id ∨ symbol.id ∈ checker.pending) ∧
    ∀ caller callee, Found checker later caller → base.HasGraph callee → base.Calls caller callee →
      later.Summarized callee ∨ callee ∈ checker.pending
  | _, _, _, _, .remembered hfound, _, _ => by
    refine ⟨fun _ => ?_, fun caller callee hcaller => absurd hcaller.2 hcaller.1⟩
    rcases eq_of_remembered? hfound with hfound | ⟨hpending, -⟩
    · exact .inl ⟨_, hfound⟩
    · exact .inr hpending
  | checker, _, symbol, _, .unknown _ hflow, hbase, _ => by
    obtain ⟨graphs, hgraphs⟩ := checker.graph_snd symbol.id
    constructor
    · rintro ⟨graph, hgraph⟩
      rw [← hbase.flow?] at hgraph
      exact absurd hgraph (hflow graph)
    · intro caller callee hcaller
      rw [hgraphs] at hcaller
      exact absurd hcaller.2 hcaller.1
  | checker, _, symbol, _, @Asks.summarized _ middle _ graph table hnone hflow hnodes, hbase,
      hchecker => by
    have hbegin : base.Agrees (checker.begin symbol.id) :=
      hbase.trans (checker.agrees_begin symbol.id)
    obtain ⟨hcallees, hclosed⟩ := hnodes.closes hbegin (hchecker.begin hnone hflow)
    rw [hbase.flow?] at hflow
    refine ⟨fun _ => .inl ⟨graph.summary table, by rw [lookup_finish, if_pos rfl]⟩, ?_⟩
    intro caller callee hcaller hgraph hcalls
    apply summarized_or_pending_finish
    rcases hcaller.of_finish with rfl | hcaller
    · obtain ⟨node, hnode, called, hcalled, rfl⟩ := (calls_iff hflow).mp hcalls
      exact hcallees node hnode called hcalled hgraph
    · exact hclosed caller callee hcaller hgraph hcalls

/-- Every script that nodes call ends up summarised unless it is being summarised, and so does every
script that a script called whose summary was found meanwhile. -/
theorem AsksAll.closes : ∀ {checker later : Checker} {nodes : List FlowNode}
    {table : List Effects}, AsksAll checker nodes table later → base.Agrees checker →
    checker.Consistent →
    (∀ node ∈ nodes, ∀ symbol, node.callee? = some symbol → base.HasGraph symbol.id →
      later.Summarized symbol.id ∨ symbol.id ∈ checker.pending) ∧
    ∀ caller callee, Found checker later caller → base.HasGraph callee → base.Calls caller callee →
      later.Summarized callee ∨ callee ∈ checker.pending
  | _, _, _, _, .nil, _, _ =>
    ⟨fun node hnode => absurd hnode List.not_mem_nil,
      fun caller callee hcaller => absurd hcaller.2 hcaller.1⟩
  | _, _, _, _, .own hcallee hrest, hbase, hchecker => by
    obtain ⟨hcallees, hclosed⟩ := hrest.closes hbase hchecker
    refine ⟨fun node hnode symbol hsymbol => ?_, hclosed⟩
    rcases List.mem_cons.mp hnode with rfl | hnode
    · rw [hcallee] at hsymbol
      cases hsymbol
    · exact hcallees node hnode symbol hsymbol
  | checker, later, _, _, @AsksAll.call _ middle _ _ _ called _ _ hcallee hfirst hrest, hbase,
      hchecker => by
    obtain ⟨hmiddle, hlearns⟩ := hfirst.keeps hchecker
    have hagrees := hbase.trans hlearns.toAgrees
    obtain ⟨-, hmore⟩ := hrest.keeps hmiddle
    obtain ⟨hcalled, hclosed⟩ := hfirst.closes hbase hchecker
    obtain ⟨hcallees, hclosed'⟩ := hrest.closes hagrees hmiddle
    rw [hlearns.pending] at hcallees hclosed'
    have hkept (id : ScriptId) (h : middle.Summarized id ∨ id ∈ checker.pending) :
        later.Summarized id ∨ id ∈ checker.pending := by
      rcases h with ⟨found, hfound⟩ | hpending
      · exact .inl ⟨found, hmore.summaries id found hfound⟩
      · exact .inr hpending
    constructor
    · intro node hnode symbol hsymbol hgraph
      rcases List.mem_cons.mp hnode with rfl | hnode
      · rw [hcallee] at hsymbol
        cases hsymbol
        exact hkept called.id (hcalled hgraph)
      · exact hcallees node hnode symbol hsymbol hgraph
    · intro caller callee hcaller hgraph hcalls
      rcases hcaller.split middle with hcaller | hcaller
      · exact hkept callee (hclosed caller callee hcaller hgraph hcalls)
      · exact hclosed' caller callee hcaller hgraph hcalls

end

mutual

/-- A summary has what every script has itself whose summary was found meanwhile. -/
theorem Asks.collects : ∀ {checker later : Checker} {symbol : ScriptSymbol} {effects : Effects},
    Asks checker symbol effects later → base.Agrees checker → checker.Consistent →
    ∀ id, Found checker later id → base.Owns aspect id → aspect.holds effects
  | _, _, _, _, .remembered _, _, _ => fun id hfound => absurd hfound.2 hfound.1
  | checker, _, symbol, _, .unknown _ _, _, _ => by
    intro id hfound
    obtain ⟨graphs, hgraphs⟩ := checker.graph_snd symbol.id
    rw [hgraphs] at hfound
    exact absurd hfound.2 hfound.1
  | checker, _, symbol, _, @Asks.summarized _ middle _ graph table hnone hflow hnodes, hbase,
      hchecker => by
    intro id hfound howns
    have hbegin : base.Agrees (checker.begin symbol.id) :=
      hbase.trans (checker.agrees_begin symbol.id)
    have hconsistent := hchecker.begin hnone hflow
    rw [hbase.flow?] at hflow
    rcases hfound.of_finish with rfl | hfound
    · exact holds_summary_of_owns hflow hnodes.length_eq
        (hnodes.eq_ownEffects hbegin hconsistent) howns
    · exact (aspect.holds_summary_iff graph table hnodes.length_eq).mpr
        (hnodes.collects hbegin hconsistent id hfound howns)

/-- The effects of some node have what a script has itself whose summary was found meanwhile. -/
theorem AsksAll.collects : ∀ {checker later : Checker} {nodes : List FlowNode}
    {table : List Effects}, AsksAll checker nodes table later → base.Agrees checker →
    checker.Consistent → ∀ id, Found checker later id → base.Owns aspect id →
      ∃ entry ∈ nodes.zip table, aspect.counts entry.1 = true ∧ aspect.holds entry.2
  | _, _, _, _, .nil, _, _ => fun id hfound => absurd hfound.2 hfound.1
  | _, _, _, _, .own _ hrest, hbase, hchecker => by
    intro id hfound howns
    obtain ⟨entry, hentry, hholds⟩ := hrest.collects hbase hchecker id hfound howns
    exact ⟨entry, List.mem_cons_of_mem _ hentry, hholds⟩
  | checker, _, _, _, @AsksAll.call _ middle _ _ _ _ _ _ hcallee hfirst hrest, hbase,
      hchecker => by
    intro id hfound howns
    obtain ⟨hmiddle, hlearns⟩ := hfirst.keeps hchecker
    rcases hfound.split middle with hfound | hfound
    · have hholds := hfirst.collects hbase hchecker id hfound howns
      exact ⟨_, List.mem_cons_self, (counts_of_callee? hcallee base.contracts).1, hholds⟩
    · obtain ⟨entry, hentry, hholds⟩ :=
        hrest.collects (hbase.trans hlearns.toAgrees) hmiddle id hfound howns
      exact ⟨entry, List.mem_cons_of_mem _ hentry, hholds⟩

end

/-- Nothing is remembered by a checker that was asked nothing. -/
private theorem within_of_summaries_eq_nil (h : checker.summaries = []) :
    base.Within aspect checker := by
  intro id effects hfound
  rw [h] at hfound
  cases hfound

/-- In a checker that was asked nothing, every script with a graph that the one asked for reaches
ends up summarised. -/
private theorem summarized_of_reaches {symbol : ScriptSymbol} (hidle : checker.Idle)
    (hfresh : checker.summaries = []) (hgraph : checker.HasGraph symbol.id)
    (h : checker.Reaches symbol.id id) :
    Found checker (Query.effects symbol checker).2 id := by
  have hnone (id : ScriptId) : ¬checker.Summarized id := by
    rintro ⟨effects, hfound⟩
    rw [hfresh] at hfound
    cases hfound
  obtain ⟨hroot, hclosed⟩ :=
    (asks_effects symbol hidle.consistent).closes ⟨rfl, rfl⟩ hidle.consistent
  rw [hidle.pending_eq] at hroot hclosed
  unfold Reaches at h
  induction h with
  | refl => exact ⟨hnone _, (hroot hgraph).resolve_right List.not_mem_nil⟩
  | tail _ hcall ih =>
    have hlater := hclosed _ _ ih hcall.2.1 hcall.2.2
    exact ⟨hnone _, hlater.resolve_right List.not_mem_nil⟩

/-- In a checker that was asked nothing, the summary of a script with a graph has exactly what the
scripts have themselves that the script reaches. -/
theorem holds_effects_iff (aspect : Aspect) {symbol : ScriptSymbol} (hidle : checker.Idle)
    (hfresh : checker.summaries = []) (hgraph : checker.HasGraph symbol.id) :
    aspect.holds (Query.effects symbol checker).1 ↔ checker.Gathers aspect symbol.id := by
  have hasks := asks_effects symbol hidle.consistent
  have hbase : checker.Agrees checker := ⟨rfl, rfl⟩
  constructor
  · intro hholds
    have hwithin : checker.Within aspect checker := within_of_summaries_eq_nil hfresh
    exact ((hasks.within hbase hidle.consistent hwithin).2.2.1 hholds).2
  · rintro ⟨other, hreaches, howns⟩
    have hfound := summarized_of_reaches hidle hfresh hgraph hreaches
    exact hasks.collects hbase hidle.consistent other hfound howns

/-- Whatever a checker was asked, its summaries lie between what their scripts have themselves and
what their scripts gather. -/
theorem within_after (aspect : Aspect) (hidle : checker.Idle) (hfresh : checker.summaries = [])
    (questions : List Question) :
    (checker.after questions).Idle ∧ checker.Agrees (checker.after questions) ∧
      checker.Within aspect (checker.after questions) := by
  refine (hidle.steps_after questions).invariant
    (fun later => checker.Agrees later ∧ checker.Within aspect later) ?_ hidle
    ⟨⟨rfl, rfl⟩, within_of_summaries_eq_nil hfresh⟩
  rintro middle later hmiddle hstep ⟨hagrees, hwithin⟩
  refine ⟨hagrees.trans (hstep.keeps hmiddle.consistent).2.toAgrees, ?_⟩
  cases hstep with
  | graph id =>
    obtain ⟨graphs, hgraphs⟩ := middle.graph_snd id
    rwa [hgraphs]
  | asks hasks => exact (hasks.within hagrees hmiddle.consistent hwithin).1

/-- Whether an instruction of a known script contributes a pointer, by its bit, to a part of the
effects. -/
def Contributes (checker : Checker) (part : Effects → PointerSet) (id : ScriptId) (bit : Nat) :
    Prop :=
  ∃ script, checker.script? id = some script ∧ ∃ instruction ∈ script.instructions,
    (part (instruction.ownEffects checker.contracts)).bits.getLsbD bit = true

/-- Whether a part of the effects lies between what a script contributes and what all scripts
contribute that it reaches. -/
def LiesBetween (checker : Checker) (part : Effects → PointerSet) (id : ScriptId)
    (pointers : PointerSet) : Prop :=
  ∀ bit, (checker.Contributes part id bit → pointers.bits.getLsbD bit = true) ∧
    (pointers.bits.getLsbD bit = true →
      ∃ other, checker.Reaches id other ∧ checker.Contributes part other bit)

/-- Summaries of later states lie between what their scripts have and what they gather. -/
private theorem between_after (aspect : Aspect) (hidle : checker.Idle)
    (hfresh : checker.summaries = []) {symbol : ScriptSymbol}
    (hgraph : checker.HasGraph symbol.id) (questions : List Question) :
    (Query.effects symbol (checker.after questions)).1.conditional = false ∧
      (checker.Owns aspect symbol.id →
        aspect.holds (Query.effects symbol (checker.after questions)).1) ∧
      (aspect.holds (Query.effects symbol (checker.after questions)).1 →
        checker.Gathers aspect symbol.id) := by
  obtain ⟨hlater, hagrees, hwithin⟩ := within_after aspect hidle hfresh questions
  obtain ⟨-, hconditional, hupper, hlower⟩ :=
    (asks_effects symbol hlater.consistent).within hagrees hlater.consistent hwithin
  rw [hlater.pending_eq] at hlower
  exact ⟨hconditional, hlower hgraph List.not_mem_nil, fun hholds => (hupper hholds).2⟩

/-- Cutting recursion loses nothing for the script that is asked for first, whatever the calls: its
summary requires exactly what the scripts that it reaches require themselves, and sets exactly what
their commands set on every outcome. After any questions the summary lies between what the script
itself contributes and that. -/
theorem effects_gather (contracts : Contracts) (scripts : List CompiledScript)
    (symbol : ScriptSymbol) (hgraph : ((new contracts).addAll scripts).HasGraph symbol.id) :
    let checker := (new contracts).addAll scripts
    (∀ bit, (Query.effects symbol checker).1.required.bits.getLsbD bit = true ↔
      ∃ id, checker.Reaches symbol.id id ∧ checker.Contributes Effects.required id bit) ∧
    (∀ bit, (Query.effects symbol checker).1.set.bits.getLsbD bit = true ↔
      ∃ id, checker.Reaches symbol.id id ∧ checker.Contributes Effects.definiteSet id bit) ∧
    ∀ questions,
      checker.LiesBetween Effects.required symbol.id
        (Query.effects symbol (checker.after questions)).1.required ∧
      checker.LiesBetween Effects.definiteSet symbol.id
        (Query.effects symbol (checker.after questions)).1.set := by
  intro checker
  have hidle : checker.Idle := idle_addAll_new contracts scripts
  have hfresh : checker.summaries = [] := by
    obtain ⟨known, hknown⟩ := addAll_new contracts scripts
    exact congrArg Checker.summaries hknown
  have hset (questions : List Question) :
      (Query.effects symbol (checker.after questions)).1.definiteSet =
        (Query.effects symbol (checker.after questions)).1.set := by
    have hconditional :=
      (between_after (.sets 0) hidle hfresh hgraph questions).1
    rw [Effects.definiteSet, hconditional]
    rfl
  refine ⟨fun bit => holds_effects_iff (.requires bit) hidle hfresh hgraph,
    fun bit => ?_, fun questions => ⟨fun bit => ?_, fun bit => ?_⟩⟩
  · have hfirst : (Query.effects symbol checker).1.definiteSet =
        (Query.effects symbol checker).1.set := hset []
    rw [← hfirst]
    exact holds_effects_iff (.sets bit) hidle hfresh hgraph
  · exact (between_after (.requires bit) hidle hfresh hgraph questions).2
  · rw [← hset questions]
    exact (between_after (.sets bit) hidle hfresh hgraph questions).2

/-- A script that calls itself and another one. -/
private def pingScript : CompiledScript where
  symbol := ⟨.proc, "ping", [], []⟩
  blocks := [⟨⟨"entry"⟩, [.onSymbol .gosub (.script ⟨.proc, "ping", [], []⟩),
    .onSymbol .gosub (.script ⟨.proc, "pong", [], []⟩), ⟨.leave, .none, none⟩]⟩]

/-- A script that jumps back to its caller after a command. -/
private def pongScript : CompiledScript where
  symbol := ⟨.proc, "pong", [], []⟩
  blocks := [⟨⟨"entry"⟩, [.onSymbol .command (.command ⟨"hit", [], []⟩),
    .onSymbol .jump (.script ⟨.proc, "ping", [], []⟩)]⟩]

/-- The contract of the command. -/
private def hitContracts : Contracts := ⟨[("hit", { required := ⟨1⟩, set := ⟨2⟩ })]⟩

/-- The checker that knows both scripts. -/
private def pingPong : Checker := (new hitContracts).addAll [pongScript, pingScript]

/-- Both scripts of the pair are known and have graphs. -/
private theorem hasGraph_pingPong :
    pingPong.HasGraph pingScript.id ∧ pingPong.HasGraph pongScript.id :=
  ⟨hasGraph_of_isOk pingScript (by decide +kernel) (by decide +kernel),
    hasGraph_of_isOk pongScript (by decide +kernel) (by decide +kernel)⟩

/-- The first script of the pair reaches the second. -/
private theorem reaches_pingPong : pingPong.Reaches pingScript.id pongScript.id := by
  refine .single ⟨hasGraph_pingPong.1, hasGraph_pingPong.2, pingScript, by decide +kernel,
    .onSymbol .gosub (.script pongScript.symbol), ?_, pongScript.symbol, rfl, rfl⟩
  simp [pingScript, pongScript, CompiledScript.instructions]

theorem effects_gather_pingPong :
    pingPong.HasGraph pingScript.symbol.id ∧
      (Query.effects pingScript.symbol pingPong).1.required.bits.getLsbD 0 = true ∧
      (Query.effects pingScript.symbol pingPong).1.set.bits.getLsbD 1 = true ∧
      pingPong.LiesBetween Effects.required pingScript.symbol.id
        (Query.effects pingScript.symbol
          (pingPong.after [.effects pongScript.symbol])).1.required := by
  obtain ⟨hrequired, hset, hlater⟩ :=
    effects_gather hitContracts [pongScript, pingScript] pingScript.symbol hasGraph_pingPong.1
  have hown (part : Effects → PointerSet) (bit : Nat)
      (hbit : (part (hitContracts.get "hit")).bits.getLsbD bit = true) :
      pingPong.Contributes part pongScript.id bit :=
    ⟨pongScript, by decide +kernel, .onSymbol .command (.command ⟨"hit", [], []⟩),
      by simp [pongScript, CompiledScript.instructions], hbit⟩
  exact ⟨hasGraph_pingPong.1,
    (hrequired 0).mpr ⟨_, reaches_pingPong, hown Effects.required 0 (by decide)⟩,
    (hset 1).mpr ⟨_, reaches_pingPong, hown Effects.definiteSet 1 (by decide)⟩,
    (hlater [.effects pongScript.symbol]).1⟩

end Checker

end ScriptBackend

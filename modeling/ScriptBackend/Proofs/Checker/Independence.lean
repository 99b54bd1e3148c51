import Mathlib.Data.Fintype.Card
import Mathlib.Data.Fintype.EquivFin
import ScriptBackend.Pipeline
import ScriptBackend.Proofs.Checker.Questions

/-!
# Answers that do not depend on order

Where no cycle of calls leads through two or more scripts, every script has one meaning: the summary
that follows from the meanings of the scripts it calls, its calls to itself counting as nothing. The
calls are then well founded apart from those, and every summary that a checker remembers is the
meaning of its script, whatever was asked before. So neither the order in which scripts were made
known nor the questions asked before change an answer.
-/

namespace ScriptBackend

/-- The effects of a node, given the effects of called scripts. -/
def FlowNode.effectsBy (contracts : Contracts) (callee : ScriptSymbol → Effects)
    (node : FlowNode) : Effects :=
  match node.callee? with
  | some symbol => callee symbol
  | none => node.ownEffects contracts

/-- The summary of a graph, given the effects of called scripts. -/
def FlowGraph.summaryBy (graph : FlowGraph) (contracts : Contracts)
    (callee : ScriptSymbol → Effects) : Effects :=
  graph.summary (graph.nodes.map fun node => node.effectsBy contracts callee)

/-- A summary depends on the effects of the scripts that are called. -/
theorem FlowGraph.summaryBy_congr {graph : FlowGraph} {contracts : Contracts}
    {callee other : ScriptSymbol → Effects}
    (h : ∀ node ∈ graph.nodes, ∀ symbol, node.callee? = some symbol →
      callee symbol = other symbol) :
    graph.summaryBy contracts callee = graph.summaryBy contracts other := by
  unfold summaryBy
  congr 1
  refine List.map_congr_left fun node hnode => ?_
  unfold FlowNode.effectsBy
  cases hcallee : node.callee? with
  | none => rfl
  | some symbol => exact h node hnode symbol hcallee

instance : Finite ScriptId :=
  Finite.of_injective (fun id : ScriptId => id.digest.toFin) fun ⟨_⟩ ⟨_⟩ h =>
    congrArg ScriptId.mk (UInt64.toFin_inj.mp h)

namespace Checker

/-- Whether no cycle of calls leads through two or more scripts. -/
def NoMutualCalls (checker : Checker) : Prop :=
  ∀ first second, Relation.ReflTransGen checker.Calls first second →
    Relation.ReflTransGen checker.Calls second first → first = second

/-- Calls that lead from a script to itself or to one of lower rank have no cycle through two or
more scripts. -/
theorem noMutualCalls_of_rank {checker : Checker} (rank : ScriptId → Nat)
    (h : ∀ caller callee, checker.Calls caller callee → callee = caller ∨
      rank callee < rank caller) : checker.NoMutualCalls := by
  have hreach {first second : ScriptId}
      (hcalls : Relation.ReflTransGen checker.Calls first second) :
      second = first ∨ rank second < rank first := by
    induction hcalls with
    | refl => exact .inl rfl
    | @tail middle last _ hcall ih =>
      rcases h middle last hcall with rfl | hlt
      · exact ih
      · rcases ih with rfl | hless
        · exact .inr hlt
        · exact .inr (Nat.lt_trans hlt hless)
  intro first second hforth hback
  rcases hreach hforth with rfl | hlt
  · rfl
  · rcases hreach hback with rfl | hless
    · rfl
    · omega

/-- The meanings of scripts without mutual calls: the summaries that follow from the meanings of the
scripts they call. -/
structure Meaning (checker : Checker) where
  /-- The meaning of each script. -/
  effects : ScriptId → Effects
  noMutualCalls : checker.NoMutualCalls
  effects_eq : ∀ id, effects id =
    match checker.flow? id with
    | some (.ok graph) => graph.summaryBy checker.contracts fun symbol =>
        if symbol.id = id then .none else effects symbol.id
    | _ => .none

variable {base checker later : Checker} {meaning : base.Meaning}

/-- Whether a script is called by another one. -/
private def CalledBy (checker : Checker) (callee caller : ScriptId) : Prop :=
  checker.Calls caller callee ∧ callee ≠ caller

/-- Calls of other scripts are well founded if no cycle leads through two scripts. -/
private theorem wellFounded_calledBy (h : base.NoMutualCalls) : WellFounded base.CalledBy := by
  have hreach (callee caller : ScriptId)
      (hsteps : Relation.ReflTransGen base.CalledBy callee caller) :
      Relation.ReflTransGen base.Calls caller callee := by
    induction hsteps with
    | refl => exact .refl
    | tail _ hstep ih => exact .head hstep.1 ih
  have hirrefl : Std.Irrefl (Relation.TransGen base.CalledBy) := by
    constructor
    intro id hcycle
    obtain ⟨caller, hstep, hrest⟩ := Relation.TransGen.head'_iff.mp hcycle
    have hback : Relation.ReflTransGen base.Calls caller id := .single hstep.1
    exact hstep.2 (h id caller (hreach caller id hrest) hback)
  have htrans : IsTrans ScriptId (Relation.TransGen base.CalledBy) := ⟨fun _ _ _ => .trans⟩
  have hwf : WellFounded (Relation.TransGen base.CalledBy) :=
    Finite.wellFounded_of_trans_of_irrefl _
  have hsub : Subrelation base.CalledBy (Relation.TransGen base.CalledBy) := fun hstep =>
    .single hstep
  exact Subrelation.wf hsub hwf

/-- Scripts have meanings if no cycle of calls leads through two of them. -/
theorem nonempty_meaning (h : base.NoMutualCalls) : Nonempty base.Meaning := by
  classical
  let step (id : ScriptId) (meaning : ∀ callee, base.CalledBy callee id → Effects) : Effects :=
    match base.flow? id with
    | some (.ok graph) => graph.summaryBy base.contracts fun symbol =>
        if hcalled : base.CalledBy symbol.id id then meaning symbol.id hcalled else .none
    | _ => .none
  refine ⟨(wellFounded_calledBy h).fix step, h, fun id => ?_⟩
  rw [WellFounded.fix_eq]
  unfold step
  cases hflow : base.flow? id with
  | none => rfl
  | some outcome =>
    cases outcome with
    | error error => rfl
    | ok graph =>
      apply FlowGraph.summaryBy_congr
      intro node hnode symbol hsymbol
      have hcalls : base.Calls id symbol.id :=
        (calls_iff hflow).mpr ⟨node, hnode, symbol, hsymbol, rfl⟩
      by_cases hid : symbol.id = id
      · rw [if_pos hid, dif_neg fun hcalled => hcalled.2 hid]
      · rw [if_neg hid, dif_pos ⟨hcalls, hid⟩]

/-- Whether every summary that a checker remembers is the meaning of its script. -/
def Meaning.RememberedBy (meaning : base.Meaning) (checker : Checker) : Prop :=
  ∀ id effects, checker.summaries.lookup id = some effects → effects = meaning.effects id

/-- What a checker gives for a script: nothing while it is being summarised, else its meaning. -/
def Meaning.givenBy (meaning : base.Meaning) (checker : Checker) (id : ScriptId) : Effects :=
  if id ∈ checker.pending then .none else meaning.effects id

/-- A script that is summarised from what is given for the scripts it calls gets its meaning, if all
scripts that are being summarised lead to it by calls. -/
private theorem summary_eq_meaning {id : ScriptId} {graph : FlowGraph}
    (hflow : base.flow? id = some (.ok graph))
    (hpending : ∀ caller ∈ checker.pending, Relation.ReflTransGen base.Calls caller id) :
    graph.summaryBy base.contracts (fun symbol => meaning.givenBy (checker.begin id) symbol.id) =
      meaning.effects id := by
  rw [meaning.effects_eq id, hflow]
  apply FlowGraph.summaryBy_congr
  intro node hnode symbol hsymbol
  have hcall : base.Calls id symbol.id := (calls_iff hflow).mpr ⟨node, hnode, symbol, hsymbol, rfl⟩
  -- a script that is being summarised leads to this one, so it is called only if it is this one
  have hiff : symbol.id ∈ (checker.begin id).pending ↔ symbol.id = id := by
    rw [pending_begin, List.mem_cons]
    constructor
    · rintro (hid | hmem)
      · exact hid
      · exact meaning.noMutualCalls symbol.id id (hpending symbol.id hmem) (.single hcall)
    · exact .inl
  by_cases hid : symbol.id = id
  · rw [Meaning.givenBy, if_pos (hiff.mpr hid), if_pos hid]
  · rw [Meaning.givenBy, if_neg (mt hiff.mp hid), if_neg hid]

mutual

/-- A checker that remembers meanings gives the meaning of a script, unless it is being summarised,
and still remembers meanings. -/
theorem Asks.means (meaning : base.Meaning) :
    ∀ {checker later : Checker} {symbol : ScriptSymbol} {effects : Effects},
    Asks checker symbol effects later → base.Agrees checker → checker.Consistent →
    meaning.RememberedBy checker →
    (∀ caller ∈ checker.pending, Relation.ReflTransGen base.Calls caller symbol.id) →
    meaning.RememberedBy later ∧ effects = meaning.givenBy checker symbol.id
  | _, _, _, _, .remembered hfound, _, hchecker, hmemory => by
    intro _
    refine ⟨hmemory, ?_⟩
    rcases eq_of_remembered? hfound with hfound | ⟨hpending, rfl⟩
    · rw [Meaning.givenBy, if_neg (hchecker.summaries _ _ hfound)]
      exact hmemory _ _ hfound
    · rw [Meaning.givenBy, if_pos hpending]
  | checker, _, symbol, _, .unknown hnone hflow, hbase, _, hmemory => by
    intro _
    obtain ⟨graphs, hgraphs⟩ := checker.graph_snd symbol.id
    refine ⟨by rwa [hgraphs], ?_⟩
    rw [Meaning.givenBy, if_neg (remembered?_eq_none_iff.mp hnone).2, meaning.effects_eq]
    split
    · next graph hgraph =>
      rw [← hbase.flow?] at hgraph
      exact absurd hgraph (hflow graph)
    · rfl
  | checker, _, symbol, _, @Asks.summarized _ middle _ graph table hnone hflow hnodes, hbase,
      hchecker, hmemory => by
    intro hpending
    have hfresh := (remembered?_eq_none_iff.mp hnone).2
    have hconsistent := hchecker.begin hnone hflow
    rw [hbase.flow?] at hflow
    have hmemory' : meaning.RememberedBy (checker.begin symbol.id) := by
      unfold Meaning.RememberedBy
      rwa [summaries_begin]
    have hlead : ∀ caller ∈ (checker.begin symbol.id).pending, ∀ node ∈ graph.nodes, ∀ callee,
        node.callee? = some callee → Relation.ReflTransGen base.Calls caller callee.id := by
      intro caller hcaller node hnode callee hcallee
      have hcall : base.Calls symbol.id callee.id :=
        (calls_iff hflow).mpr ⟨node, hnode, callee, hcallee, rfl⟩
      rw [pending_begin] at hcaller
      rcases List.mem_cons.mp hcaller with rfl | hcaller
      · exact .single hcall
      · exact (hpending caller hcaller).tail hcall
    obtain ⟨hmiddle, htable⟩ := hnodes.means meaning
      (hbase.trans (checker.agrees_begin symbol.id)) hconsistent hmemory' hlead
    have hsummary : graph.summary table = meaning.effects symbol.id := by
      rw [htable]
      exact summary_eq_meaning hflow hpending
    refine ⟨?_, by rw [Meaning.givenBy, if_neg hfresh, hsummary]⟩
    intro other found hfound
    rw [lookup_finish] at hfound
    split at hfound
    · next hother =>
      cases hfound
      rw [hother, hsummary]
    · exact hmiddle other found hfound

/-- A checker that remembers meanings gives the effects of nodes by the meanings of the scripts they
call. -/
theorem AsksAll.means (meaning : base.Meaning) :
    ∀ {checker later : Checker} {nodes : List FlowNode} {table : List Effects},
    AsksAll checker nodes table later → base.Agrees checker → checker.Consistent →
    meaning.RememberedBy checker →
    (∀ caller ∈ checker.pending, ∀ node ∈ nodes, ∀ callee, node.callee? = some callee →
      Relation.ReflTransGen base.Calls caller callee.id) →
    meaning.RememberedBy later ∧ table = nodes.map fun node =>
      node.effectsBy base.contracts fun symbol => meaning.givenBy checker symbol.id
  | _, _, _, _, .nil, _, _, hmemory => fun _ => ⟨hmemory, rfl⟩
  | checker, _, _, _, @AsksAll.own _ _ node _ _ hcallee hrest, hbase, hchecker, hmemory => by
    intro hlead
    obtain ⟨hlater, htable⟩ := hrest.means meaning hbase hchecker hmemory
      fun caller hcaller node hnode => hlead caller hcaller node (List.mem_cons_of_mem _ hnode)
    refine ⟨hlater, ?_⟩
    rw [List.map_cons, htable, FlowNode.effectsBy, hcallee, hbase.contracts]
  | checker, _, _, _, @AsksAll.call _ middle _ node _ called _ _ hcallee hfirst hrest, hbase,
      hchecker, hmemory => by
    intro hlead
    obtain ⟨hconsistent, hlearns⟩ := hfirst.keeps hchecker
    obtain ⟨hmiddle, heffects⟩ := hfirst.means meaning hbase hchecker hmemory
      fun caller hcaller => hlead caller hcaller node List.mem_cons_self called hcallee
    obtain ⟨hlater, htable⟩ := hrest.means meaning (hbase.trans hlearns.toAgrees)
      hconsistent hmiddle fun caller hcaller node hnode => by
        rw [hlearns.pending] at hcaller
        exact hlead caller hcaller node (List.mem_cons_of_mem _ hnode)
    have hgiven : meaning.givenBy middle = meaning.givenBy checker := by
      funext id
      rw [Meaning.givenBy, Meaning.givenBy, hlearns.pending]
    refine ⟨hlater, ?_⟩
    rw [List.map_cons, htable, heffects, FlowNode.effectsBy, hcallee, hgiven]

end

/-- Whether a checker is between questions, knows the scripts that meanings are of, and remembers
meanings. -/
structure Meaning.SettledIn (meaning : base.Meaning) (checker : Checker) : Prop where
  idle : checker.Idle
  agrees : base.Agrees checker
  remembered : meaning.RememberedBy checker

/-- A settled checker is settled after each step. -/
theorem Meaning.SettledIn.step (h : meaning.SettledIn checker) (hstep : Step checker later) :
    meaning.SettledIn later := by
  refine ⟨h.idle.step hstep, h.agrees.trans (hstep.keeps h.idle.consistent).2.toAgrees, ?_⟩
  cases hstep with
  | graph id =>
    obtain ⟨graphs, hgraphs⟩ := checker.graph_snd id
    rw [hgraphs]
    exact h.remembered
  | asks hasks =>
    refine (hasks.means meaning h.agrees h.idle.consistent h.remembered ?_).1
    rw [h.idle.pending_eq]
    exact fun caller hcaller => absurd hcaller List.not_mem_nil

/-- A settled checker is settled after any steps. -/
theorem Meaning.SettledIn.steps (h : meaning.SettledIn checker) (hsteps : Steps checker later) :
    meaning.SettledIn later := by
  induction hsteps with
  | refl => exact h
  | tail _ hstep ih => exact ih.step hstep

/-- A settled checker answers with the meaning of a script. -/
theorem Meaning.SettledIn.effects_fst (h : meaning.SettledIn checker) (symbol : ScriptSymbol) :
    (Query.effects symbol checker).1 = meaning.effects symbol.id := by
  have hasks := asks_effects symbol h.idle.consistent
  have hanswer := (hasks.means meaning h.agrees h.idle.consistent h.remembered (by
    rw [h.idle.pending_eq]
    exact fun caller hcaller => absurd hcaller List.not_mem_nil)).2
  rw [hanswer, Meaning.givenBy, h.idle.pending_eq, if_neg List.not_mem_nil]

/-- A settled checker answers with the effects of nodes by meanings. -/
theorem Meaning.SettledIn.nodeTable_fst (h : meaning.SettledIn checker) (nodes : List FlowNode) :
    (Query.nodeTable Query.effects nodes checker).1 = nodes.map fun node =>
      node.effectsBy base.contracts fun symbol => meaning.effects symbol.id := by
  have hasks := asksAll_nodeTable_effects nodes h.idle.consistent
  have hanswer := (hasks.means meaning h.agrees h.idle.consistent h.remembered (by
    rw [h.idle.pending_eq]
    exact fun caller hcaller => absurd hcaller List.not_mem_nil)).2
  have hgiven : meaning.givenBy checker = meaning.effects := by
    funext id
    rw [Meaning.givenBy, h.idle.pending_eq, if_neg List.not_mem_nil]
  rw [hanswer, hgiven]

/-- A settled checker answers questions about all nodes of a script by meanings. -/
theorem Meaning.SettledIn.overNodes_fst (h : meaning.SettledIn checker) {α : Type} (id : ScriptId)
    (unknown : α) (failed : FlowError → α) (answer : FlowGraph → List Effects → α) :
    (Query.overNodes id unknown failed answer checker).1 =
      match base.flow? id with
      | none => unknown
      | some (.error error) => failed error
      | some (.ok graph) => answer graph (graph.nodes.map fun node =>
          node.effectsBy base.contracts fun symbol => meaning.effects symbol.id) := by
  have hlater := h.step (.graph checker id)
  rw [Query.overNodes_eq h.idle.consistent, h.agrees.flow?]
  cases base.flow? id with
  | none => rfl
  | some outcome =>
    cases outcome with
    | error error => rfl
    | ok graph => exact congrArg (answer graph) (hlater.nodeTable_fst graph.nodes)

/-- A settled checker answers with the effects of a node by meanings. -/
theorem Meaning.SettledIn.nodeEffects_fst (h : meaning.SettledIn checker) (node : FlowNode) :
    (Query.nodeEffects Query.effects node checker).1 =
      node.effectsBy base.contracts fun symbol => meaning.effects symbol.id := by
  unfold FlowNode.effectsBy
  cases hcallee : node.callee? with
  | none =>
    rw [Query.nodeEffects_of_callee?_eq_none hcallee, h.agrees.contracts]
  | some symbol =>
    rw [Query.nodeEffects_of_callee? hcallee]
    exact h.effects_fst symbol

/-- A checker that was only made to know scripts is settled. -/
theorem settledIn_addAll_new {contracts : Contracts} {scripts : List CompiledScript}
    (meaning : ((new contracts).addAll scripts).Meaning) :
    meaning.SettledIn ((new contracts).addAll scripts) := by
  refine ⟨idle_addAll_new contracts scripts, ⟨rfl, rfl⟩, ?_⟩
  intro id effects hfound
  obtain ⟨known, hknown⟩ := addAll_new contracts scripts
  rw [hknown] at hfound
  cases hfound

/-- Whether two checkers answer every question about a script alike. -/
structure AnswersLike (checker other : Checker) : Prop where
  effects : ∀ symbol, (Query.effects symbol checker).1 = (Query.effects symbol other).1
  node : ∀ node, (Query.nodeEffects Query.effects node checker).1 =
    (Query.nodeEffects Query.effects node other).1
  nodes : ∀ symbol, (Query.scriptNodes symbol checker).1 = (Query.scriptNodes symbol other).1
  path : ∀ symbol pointer, (Query.corruptionPath symbol pointer checker).1 =
    (Query.corruptionPath symbol pointer other).1
  sites : ∀ symbol pointer, (Query.pointerSites symbol pointer checker).1 =
    (Query.pointerSites symbol pointer other).1
  check : ∀ symbol, (Query.check symbol checker).1 = (Query.check symbol other).1
  graph : ∀ id, (Query.graph id checker).1 = (Query.graph id other).1

/-- Meanings are those of any checker with the same scripts and contracts, whatever their order. -/
def Meaning.transfer (meaning : base.Meaning) {other : Checker}
    (hscript : ∀ id, other.script? id = base.script? id)
    (hcontracts : other.contracts = base.contracts) : other.Meaning where
  effects := meaning.effects
  noMutualCalls := by
    have hcalls : other.Calls = base.Calls := by
      funext caller callee
      unfold Calls
      rw [hscript]
    unfold NoMutualCalls
    rw [hcalls]
    exact meaning.noMutualCalls
  effects_eq id := by
    have hflow : other.flow? id = base.flow? id := by
      unfold flow?
      rw [hscript, hcontracts]
    rw [hflow, hcontracts]
    exact meaning.effects_eq id

/-- Checkers that are settled in the same meanings answer alike. -/
theorem Meaning.SettledIn.answersLike {other : Checker}
    (hscript : ∀ id, other.script? id = base.script? id)
    (hcontracts : other.contracts = base.contracts)
    (hlater : (meaning.transfer hscript hcontracts).SettledIn later)
    (hchecker : meaning.SettledIn checker) : later.AnswersLike checker := by
  have hflow (id : ScriptId) : other.flow? id = base.flow? id := by
    unfold flow?
    rw [hscript, hcontracts]
  have hover {α : Type} (id : ScriptId) (unknown : α) (failed : FlowError → α)
      (answer : FlowGraph → List Effects → α) :
      (Query.overNodes id unknown failed answer later).1 =
        (Query.overNodes id unknown failed answer checker).1 := by
    rw [hlater.overNodes_fst, hchecker.overNodes_fst, hflow, hcontracts]
    rfl
  have heffects (symbol : ScriptSymbol) :
      (Query.effects symbol later).1 = (Query.effects symbol checker).1 := by
    rw [hlater.effects_fst, hchecker.effects_fst]
    rfl
  refine ⟨heffects, fun node => ?_, fun symbol => hover .., fun symbol pointer => hover ..,
    fun symbol pointer => hover .., fun symbol => hover .., fun id => ?_⟩
  · rw [hlater.nodeEffects_fst, hchecker.nodeEffects_fst, hcontracts]
    rfl
  · rw [hlater.idle.consistent.graph_fst, hchecker.idle.consistent.graph_fst, hlater.agrees.flow?,
      hchecker.agrees.flow?, hflow]

/-- Reports on scripts in order are the reports on each. -/
theorem Meaning.SettledIn.checkEach_fst (hlater : meaning.SettledIn later)
    (hchecker : meaning.SettledIn checker) (scripts : List CompiledScript) :
    (Query.checkEach scripts later).1.items =
      scripts.flatMap fun script => (Query.check script.symbol checker).1.items := by
  induction scripts generalizing later with
  | nil => rfl
  | cons script rest ih =>
    have hfirst : (Query.check script.symbol later).1 = (Query.check script.symbol checker).1 := by
      rw [Query.check_eq, hlater.overNodes_fst, hchecker.overNodes_fst]
    have hsteps : Steps later (Query.check script.symbol later).2 := by
      rw [Query.check_eq]
      exact Query.steps_overNodes hlater.idle.consistent
    rw [List.flatMap_cons, ← hfirst, ← ih (hlater.steps hsteps)]
    rfl

/-- Making scripts of new and distinct identities known appends them. -/
private theorem scripts_addAll {scripts : List CompiledScript}
    (h : ((checker.scripts ++ scripts).map CompiledScript.id).Nodup) :
    (checker.addAll scripts).scripts = checker.scripts ++ scripts := by
  induction scripts generalizing checker with
  | nil => exact (List.append_nil _).symm
  | cons script rest ih =>
    have hnew : checker.script? script.id = none := by
      rw [script?, List.find?_eq_none]
      intro known hknown
      rw [List.map_append, List.nodup_append] at h
      have hne := h.2.2 known.id (List.mem_map_of_mem hknown) script.id
        (List.mem_map_of_mem List.mem_cons_self)
      simpa using hne
    have hadd : checker.add script = { checker with scripts := checker.scripts ++ [script] } := by
      rw [add, hnew]
      rfl
    change ((checker.add script).addAll rest).scripts = _
    rw [List.append_cons] at h ⊢
    rw [hadd]
    exact ih h

/-- The script of an identity is the one in the list that has it. -/
private theorem script?_eq_some_iff {scripts : List CompiledScript}
    (hscripts : checker.scripts = scripts) (hids : (scripts.map CompiledScript.id).Nodup)
    {id : ScriptId} {script : CompiledScript} :
    checker.script? id = some script ↔ script ∈ scripts ∧ script.id = id := by
  rw [script?, hscripts]
  constructor
  · intro h
    exact ⟨List.mem_of_find?_eq_some h, by simpa using List.find?_some h⟩
  · rintro ⟨hmem, hid⟩
    obtain ⟨found, hfound⟩ : ∃ found, scripts.find? (fun known => known.id = id) = some found := by
      rw [← Option.isSome_iff_exists, List.find?_isSome]
      exact ⟨script, hmem, by simpa using hid⟩
    have hfoundId : found.id = id := by simpa using List.find?_some hfound
    have heq := List.inj_on_of_nodup_map hids (List.mem_of_find?_eq_some hfound) hmem
      (hfoundId.trans hid.symm)
    rw [hfound, heq]

/-- Whatever was asked before and in whatever order scripts were made known, a checker answers like
one that was asked nothing, and reports on all scripts in their order. -/
private theorem answersLike_after (contracts : Contracts) {scripts order : List CompiledScript}
    (horder : order.Perm scripts) (hids : (scripts.map CompiledScript.id).Nodup)
    (hcalls : ((new contracts).addAll scripts).NoMutualCalls) (questions : List Question) :
    (((new contracts).addAll order).after questions).AnswersLike ((new contracts).addAll scripts) ∧
      (Query.checkAll (((new contracts).addAll order).after questions)).1.items =
        order.flatMap fun script =>
          (Query.check script.symbol ((new contracts).addAll scripts)).1.items := by
  obtain ⟨meaning⟩ := nonempty_meaning hcalls
  have hids' : (order.map CompiledScript.id).Nodup := (horder.map _).nodup_iff.mpr hids
  have hscripts : ((new contracts).addAll scripts).scripts = scripts := scripts_addAll hids
  have horder' : ((new contracts).addAll order).scripts = order := scripts_addAll hids'
  have hscript (id : ScriptId) :
      ((new contracts).addAll order).script? id = ((new contracts).addAll scripts).script? id := by
    apply Option.ext
    intro script
    rw [script?_eq_some_iff horder' hids', script?_eq_some_iff hscripts hids, horder.mem_iff]
  have hcontracts : ((new contracts).addAll order).contracts =
      ((new contracts).addAll scripts).contracts := by
    obtain ⟨known, hknown⟩ := addAll_new contracts order
    obtain ⟨known', hknown'⟩ := addAll_new contracts scripts
    rw [hknown, hknown']
  have hfresh := settledIn_addAll_new meaning
  have hother := settledIn_addAll_new (meaning.transfer hscript hcontracts)
  have hlater := hother.steps (hother.idle.steps_after questions)
  refine ⟨hlater.answersLike hscript hcontracts hfresh, ?_⟩
  have hknown : (((new contracts).addAll order).after questions).scripts = order :=
    hlater.agrees.scripts.trans horder'
  have hall := hlater.checkEach_fst hother order
  change (Query.checkEach (((new contracts).addAll order).after questions).scripts _).1.items = _
  rw [hknown, hall]
  have hlike := hother.answersLike hscript hcontracts hfresh
  simp only [hlike.check]

/-- Where no cycle of calls leads through two or more scripts, the answers about a script depend
neither on the order in which the scripts were made known nor on the questions asked before; the
report on all scripts is that on each in the order of the scripts, so the findings on scripts are
the same in any order. -/
theorem answers_independent (config : Config) {scripts order : List CompiledScript}
    (horder : order.Perm scripts) (hids : (scripts.map CompiledScript.id).Nodup)
    (hcalls : ((new config.contracts).addAll scripts).NoMutualCalls) :
    let fresh := (new config.contracts).addAll scripts
    (∀ questions,
      let later := ((new config.contracts).addAll order).after questions
      later.AnswersLike fresh ∧ (Query.checkAll later).1.items =
        order.flatMap fun script => (Query.check script.symbol fresh).1.items) ∧
      (config.checkPointers order).items.Perm (config.checkPointers scripts).items := by
  intro fresh
  refine ⟨answersLike_after config.contracts horder hids hcalls, ?_⟩
  have hsame := (answersLike_after config.contracts (List.Perm.refl scripts) hids hcalls []).2
  have hother := (answersLike_after config.contracts horder hids hcalls []).2
  change (Query.checkAll (((new config.contracts).addAll order).after [])).1.items.Perm
    (Query.checkAll (((new config.contracts).addAll scripts).after [])).1.items
  rw [hsame, hother]
  exact horder.flatMap_right _

/-- A script that calls itself and a script that corrupts a pointer. -/
private def retryScript : CompiledScript where
  symbol := ⟨.proc, "retry", [], []⟩
  blocks := [⟨⟨"entry"⟩, [.onSymbol .gosub (.script ⟨.proc, "retry", [], []⟩),
    .onSymbol .gosub (.script ⟨.proc, "lose", [], []⟩), ⟨.leave, .none, none⟩]⟩]

/-- A script that corrupts a pointer. -/
private def loseScript : CompiledScript where
  symbol := ⟨.proc, "lose", [], []⟩
  blocks := [⟨⟨"entry"⟩, [.onSymbol .command (.command ⟨"drop", [], []⟩), ⟨.leave, .none, none⟩]⟩]

/-- The options with the contract of the command that corrupts a pointer. -/
private def dropConfig : Config := { contracts := ⟨[("drop", { corrupted := ⟨1⟩ })]⟩ }

/-- The calls of the two scripts have no cycle through both. -/
private theorem noMutualCalls_retry :
    ((new dropConfig.contracts).addAll [retryScript, loseScript]).NoMutualCalls := by
  refine noMutualCalls_of_rank (fun id => if id = retryScript.id then 1 else 0) ?_
  intro caller callee hcalls
  obtain ⟨script, hscript, rfl, symbol, hsymbol, rfl⟩ := exists_of_calls_addAll_new hcalls
  rcases List.mem_pair.mp hscript with rfl | rfl
  · have hcallees : retryScript.instructions.filterMap Instruction.callee? =
        [retryScript.symbol, loseScript.symbol] := rfl
    rw [hcallees] at hsymbol
    rcases List.mem_pair.mp hsymbol with rfl | rfl
    · exact .inl rfl
    · exact .inr (by decide +kernel)
  · exact absurd hsymbol List.not_mem_nil

theorem answers_independent_retry :
    let scripts := [retryScript, loseScript]
    let order := [loseScript, retryScript]
    order.Perm scripts ∧ (scripts.map CompiledScript.id).Nodup ∧
      ((new dropConfig.contracts).addAll scripts).NoMutualCalls ∧
      (((new dropConfig.contracts).addAll order).after [.checkAll]).AnswersLike
        ((new dropConfig.contracts).addAll scripts) ∧
      (dropConfig.checkPointers order).items.Perm (dropConfig.checkPointers scripts).items := by
  intro scripts order
  have horder : order.Perm scripts := .swap ..
  have hids : (scripts.map CompiledScript.id).Nodup := by decide +kernel
  obtain ⟨hanswers, hfindings⟩ := answers_independent dropConfig horder hids noMutualCalls_retry
  exact ⟨horder, hids, noMutualCalls_retry, (hanswers [.checkAll]).1, hfindings⟩

end Checker

end ScriptBackend

import ScriptBackend.Proofs.Checker.Questions

/-!
# Questions that are asked again

A checker answers a question again as it did before, whatever else it was asked in between, as long
as no script was made known meanwhile. With mutual calls the first answer may depend on the partial
summaries that are remembered, and scripts may be replaced after their graphs were built; but an
answer uses only flows, which questions do not change, and summaries, which are remembered once
found and never overwritten. So a question leaves behind all that its answer rests on.
-/

namespace ScriptBackend

/-- A checker answers with the flow of a known script. -/
theorem Query.graph_fst (id : ScriptId) (checker : Checker) :
    (graph id checker).1 = (checker.script? id).map fun script =>
      (checker.graphs.findOrBuild script checker.contracts).1 := by
  unfold graph
  cases checker.script? id <;> rfl

namespace Checker

/-- Whether a checker has learnt from another one by questions only: it answers with the same flows,
and the summaries that it remembers beyond are of scripts that have graphs and were not being
summarised. -/
structure Extends (checker later : Checker) : Prop extends checker.Learns later where
  flows : ∀ id, (Query.graph id later).1 = (Query.graph id checker).1
  fresh : ∀ id effects, later.summaries.lookup id = some effects →
    checker.summaries.lookup id = some effects ∨
      id ∉ checker.pending ∧ ∃ graph, (Query.graph id checker).1 = some (.ok graph)

namespace Extends

variable {checker later last : Checker}

theorem refl (checker : Checker) : checker.Extends checker :=
  ⟨.refl checker, fun _ => rfl, fun _ _ h => .inl h⟩

theorem trans (h : checker.Extends later) (hlast : later.Extends last) : checker.Extends last where
  toLearns := h.toLearns.trans hlast.toLearns
  flows id := (hlast.flows id).trans (h.flows id)
  fresh id effects hfound := by
    rcases hlast.fresh id effects hfound with hlater | hgraph
    · exact h.fresh id effects hlater
    · rw [h.pending, h.flows] at hgraph
      exact .inr hgraph

/-- A script without a graph that was not summarised is not summarised by questions. -/
theorem lookup_eq_none (h : checker.Extends later) {id : ScriptId}
    (hnone : checker.summaries.lookup id = none)
    (hflow : ∀ graph, (Query.graph id checker).1 ≠ some (.ok graph)) :
    later.summaries.lookup id = none := by
  cases hfound : later.summaries.lookup id with
  | none => rfl
  | some effects =>
    rcases h.fresh id effects hfound with hold | ⟨-, graph, hgraph⟩
    · rw [hnone] at hold
      cases hold
    · exact absurd hgraph (hflow graph)

end Extends

variable {checker : Checker}

/-- Asking for a flow changes no flow. -/
private theorem graph_fst_graph_snd (checker : Checker) (id other : ScriptId) :
    (Query.graph other (Query.graph id checker).2).1 = (Query.graph other checker).1 := by
  cases hscript : checker.script? id with
  | none => simp only [Query.graph, hscript]
  | some script =>
    have hgraphs : (Query.graph id checker).2 = { checker with
        graphs := (checker.graphs.findOrBuild script checker.contracts).2 } := by
      simp only [Query.graph, hscript]
    rw [Query.graph_fst, Query.graph_fst, hgraphs]
    change (checker.script? other).map _ = _
    cases hother : checker.script? other with
    | none => rfl
    | some found =>
      have hid : script.id = id := by simpa using List.find?_some hscript
      have hfound : found.id = other := by simpa using List.find?_some hother
      simp only [Option.map_some, Option.some.injEq]
      rw [FlowCache.findOrBuild_fst, FlowCache.find?_findOrBuild_snd]
      by_cases hsame : found.id = script.id
      · obtain rfl : script = found := by
          rw [hfound, hid] at hsame
          rw [hsame, hscript] at hother
          exact Option.some.inj hother
        rw [if_pos rfl, FlowCache.findOrBuild_fst]
        cases checker.graphs.find? script.id with
        | some graph => rfl
        | none => cases FlowGraph.build script checker.contracts <;> rfl
      · rw [if_neg hsame, ← FlowCache.findOrBuild_fst]

/-- Asking for a flow is a question. -/
theorem extends_graph (checker : Checker) (id : ScriptId) :
    checker.Extends (Query.graph id checker).2 := by
  obtain ⟨graphs, hgraphs⟩ := checker.graph_snd id
  refine ⟨checker.learns_graph id, checker.graph_fst_graph_snd id, fun other effects hfound => ?_⟩
  rw [hgraphs] at hfound
  exact .inl hfound

/-- Beginning to summarise a script changes no flow. -/
private theorem graph_fst_begin (checker : Checker) (id other : ScriptId) :
    (Query.graph other (checker.begin id)).1 = (Query.graph other checker).1 := by
  rw [← checker.graph_fst_graph_snd id other, Query.graph_fst, Query.graph_fst]
  rfl

/-- Remembering a summary changes no flow. -/
private theorem graph_fst_finish (checker : Checker) (id : ScriptId) (effects : Effects)
    (other : ScriptId) :
    (Query.graph other (checker.finish id effects)).1 = (Query.graph other checker).1 := by
  rw [Query.graph_fst, Query.graph_fst]
  rfl

/-- A summary that is found by questions after it was begun is one more question. -/
private theorem extends_finish {middle : Checker} {id : ScriptId} {graph : FlowGraph}
    (hnone : checker.remembered? id = none)
    (hgraph : (Query.graph id checker).1 = some (.ok graph))
    (h : (checker.begin id).Extends middle) (effects : Effects) :
    checker.Extends (middle.finish id effects) := by
  refine ⟨learns_finish hnone h.toLearns effects, fun other => ?_, fun other found hfound => ?_⟩
  · rw [graph_fst_finish, h.flows, graph_fst_begin]
  · rw [lookup_finish] at hfound
    split at hfound
    · next hother =>
      subst hother
      exact .inr ⟨(remembered?_eq_none_iff.mp hnone).2, graph, hgraph⟩
    · rcases h.fresh other found hfound with hold | ⟨hpending, hother⟩
      · rw [summaries_begin] at hold
        exact .inl hold
      · rw [pending_begin, List.mem_cons, not_or] at hpending
        rw [graph_fst_begin] at hother
        exact .inr ⟨hpending.2, hother⟩

/-- Asking for the effects of nodes is a question if asking for those of callees is. -/
private theorem extends_nodeTable {callee : ScriptSymbol → Query Effects}
    (h : ∀ symbol checker, Extends checker (callee symbol checker).2) (nodes : List FlowNode)
    (checker : Checker) : checker.Extends (Query.nodeTable callee nodes checker).2 := by
  induction nodes generalizing checker with
  | nil => exact .refl checker
  | cons node rest ih =>
    change checker.Extends
      (Query.nodeTable callee rest (Query.nodeEffects callee node checker).2).2
    refine Extends.trans ?_ (ih _)
    cases hnode : node.callee? with
    | none =>
      rw [Query.nodeEffects_of_callee?_eq_none hnode]
      exact .refl checker
    | some symbol =>
      rw [Query.nodeEffects_of_callee? hnode]
      exact h symbol checker

/-- Asking for a summary within a depth is a question, whatever is being summarised. -/
theorem extends_effectsWithin (depth : Nat) (symbol : ScriptSymbol) (checker : Checker) :
    checker.Extends (Query.effectsWithin depth symbol checker).2 := by
  induction depth generalizing symbol checker with
  | zero =>
    rw [effectsWithin_eq]
    cases checker.remembered? symbol.id with
    | some effects => exact .refl checker
    | none =>
      dsimp only
      split <;> exact checker.extends_graph symbol.id
  | succ depth ih =>
    rw [effectsWithin_eq]
    cases hnone : checker.remembered? symbol.id with
    | some effects => exact .refl checker
    | none =>
      dsimp only
      split
      · next graph hgraph =>
        exact extends_finish hnone hgraph (extends_nodeTable ih graph.nodes _) _
      · exact checker.extends_graph symbol.id
      · exact checker.extends_graph symbol.id

/-- A script that is not remembered and has no graph has no effects. -/
private theorem effects_fst_eq_none {symbol : ScriptSymbol}
    (hnone : checker.remembered? symbol.id = none)
    (hflow : ∀ graph, (Query.graph symbol.id checker).1 ≠ some (.ok graph)) :
    (Query.effects symbol checker).1 = .none := by
  have heq : Query.effects symbol checker =
      Query.effectsWithin checker.scripts.length symbol checker := rfl
  rw [heq, effectsWithin_eq, hnone]
  dsimp only
  split
  · next graph hgraph => exact absurd hgraph (hflow graph)
  · rfl
  · rfl

/-- Between questions, the summary that is answered with is remembered, or the script has no graph
and no summary. -/
private theorem lookup_effects (hidle : checker.pending = []) (symbol : ScriptSymbol) :
    (Query.effects symbol checker).2.summaries.lookup symbol.id =
        some (Query.effects symbol checker).1 ∨
      checker.remembered? symbol.id = none ∧
        ∀ graph, (Query.graph symbol.id checker).1 ≠ some (.ok graph) := by
  have heq : Query.effects symbol checker =
      Query.effectsWithin checker.scripts.length symbol checker := rfl
  cases hfound : checker.remembered? symbol.id with
  | some effects =>
    rw [heq, effectsWithin_eq, hfound]
    rcases eq_of_remembered? hfound with hsummary | ⟨hpending, -⟩
    · exact .inl hsummary
    · rw [hidle] at hpending
      exact absurd hpending List.not_mem_nil
  | none =>
    by_cases hgraph : ∃ graph, (Query.graph symbol.id checker).1 = some (.ok graph)
    · obtain ⟨graph, hgraph⟩ := hgraph
      -- a script with a graph is known, so the depth allows for its summary
      have hknown : checker.scripts.length ≠ 0 := by
        intro hempty
        rw [Query.graph_fst, script?, List.length_eq_zero_iff.mp hempty] at hgraph
        cases hgraph
      obtain ⟨depth, hdepth⟩ := Nat.exists_eq_succ_of_ne_zero hknown
      rw [heq, hdepth, effectsWithin_eq, hfound, hgraph]
      left
      obtain ⟨table, later⟩ :=
        Query.nodeTable (Query.effectsWithin depth) graph.nodes (checker.begin symbol.id)
      exact (lookup_finish ..).trans (if_pos rfl)
    · exact .inr ⟨rfl, fun graph heq => hgraph ⟨graph, heq⟩⟩

end Checker

namespace Query

/-- Whether a question that is asked between questions is one that learns only, and is answered
again as before by every checker that has learnt more. -/
def Repeats {α : Type} (query : Query α) : Prop :=
  ∀ checker : Checker, checker.pending = [] → checker.Extends (query checker).2 ∧
    ∀ later, (query checker).2.Extends later → (query later).1 = (query checker).1

variable {α β : Type}

theorem repeats_pure (value : α) : Repeats (pure value) :=
  fun checker _ => ⟨.refl checker, fun _ _ => rfl⟩

/-- Two questions in order are answered again as before if each is. -/
theorem Repeats.bind {query : Query α} {next : α → Query β} (h : Repeats query)
    (hnext : ∀ value, Repeats (next value)) : Repeats (query >>= next) := by
  intro checker hidle
  simp only [bind_apply]
  obtain ⟨hmiddle, hfirst⟩ := h checker hidle
  obtain ⟨hlast, hsecond⟩ :=
    hnext (query checker).1 (query checker).2 (hmiddle.pending.trans hidle)
  refine ⟨hmiddle.trans hlast, fun later hlater => ?_⟩
  rw [hfirst later (hlast.trans hlater)]
  have hagain := (h later ((hlater.pending.trans hlast.pending).trans
    (hmiddle.pending.trans hidle))).1
  exact hsecond _ (hlater.trans hagain)

/-- The flow of a script is answered again as before. -/
theorem repeats_graph (id : ScriptId) : Repeats (graph id) := by
  intro checker _
  refine ⟨checker.extends_graph id, fun later hlater => ?_⟩
  exact (hlater.flows id).trans ((checker.extends_graph id).flows id)

/-- The summary of a script is answered again as before. -/
theorem repeats_effects (symbol : ScriptSymbol) : Repeats (effects symbol) := by
  intro checker hidle
  have hextends : checker.Extends (effects symbol checker).2 :=
    Checker.extends_effectsWithin checker.scripts.length symbol checker
  refine ⟨hextends, fun later hlater => ?_⟩
  have hidle' : later.pending = [] := (hlater.pending.trans hextends.pending).trans hidle
  rcases Checker.lookup_effects hidle symbol with hfound | ⟨hnone, hflow⟩
  · have heq : effects symbol later = effectsWithin later.scripts.length symbol later := rfl
    rw [heq, Checker.effectsWithin_eq, Checker.remembered?, hlater.summaries _ _ hfound]
  · have hall := hextends.trans hlater
    have hmissing := hall.lookup_eq_none (Checker.remembered?_eq_none_iff.mp hnone).1 hflow
    rw [Checker.effects_fst_eq_none hnone hflow]
    refine Checker.effects_fst_eq_none
      (Checker.remembered?_eq_none_iff.mpr ⟨hmissing, by simp [hidle']⟩) ?_
    rw [hall.flows]
    exact hflow

/-- The effects of a node are answered again as before. -/
theorem repeats_nodeEffects (node : FlowNode) : Repeats (nodeEffects effects node) := by
  cases hnode : node.callee? with
  | none =>
    intro checker _
    rw [nodeEffects_of_callee?_eq_none hnode]
    refine ⟨.refl checker, fun later hlater => ?_⟩
    rw [nodeEffects_of_callee?_eq_none hnode, hlater.contracts]
  | some symbol =>
    have heq : nodeEffects effects node = effects symbol :=
      funext fun checker => nodeEffects_of_callee? hnode effects checker
    rw [heq]
    exact repeats_effects symbol

/-- The effects of nodes are answered again as before. -/
theorem repeats_nodeTable (nodes : List FlowNode) : Repeats (nodeTable effects nodes) := by
  induction nodes with
  | nil => exact repeats_pure []
  | cons node rest ih =>
    exact (repeats_nodeEffects node).bind fun effects => ih.bind fun table =>
      repeats_pure (effects :: table)

/-- A question about all nodes of a script is answered again as before. -/
theorem repeats_overNodes (id : ScriptId) (unknown : α) (failed : FlowError → α)
    (answer : FlowGraph → List Effects → α) : Repeats (overNodes id unknown failed answer) := by
  refine (repeats_graph id).bind fun outcome => ?_
  cases outcome with
  | none => exact repeats_pure unknown
  | some outcome =>
    cases outcome with
    | error error => exact repeats_pure (failed error)
    | ok graph =>
      exact (repeats_nodeTable graph.nodes).bind fun table => repeats_pure (answer graph table)

/-- The report on scripts is given again as before. -/
theorem repeats_checkEach (scripts : List CompiledScript) : Repeats (checkEach scripts) := by
  induction scripts with
  | nil => exact repeats_pure _
  | cons script rest ih =>
    have hfirst : Repeats (check script.symbol) := repeats_overNodes _ _ _ _
    exact hfirst.bind fun first => ih.bind fun others => repeats_pure (first ++ others)

/-- The report on all scripts is given again as before, because no question changes them. -/
theorem repeats_checkAll : Repeats checkAll := by
  intro checker hidle
  obtain ⟨hextends, hagain⟩ := repeats_checkEach checker.scripts checker hidle
  refine ⟨hextends, fun later hlater => ?_⟩
  have hscripts : later.scripts = checker.scripts := hlater.scripts.trans hextends.scripts
  change (checkEach later.scripts later).1 = _
  rw [hscripts]
  exact hagain later hlater

end Query

namespace Question

/-- What a question is answered with. -/
def Answer : Question → Type
  | .effects _ | .node _ => Effects
  | .nodes _ => Option (Except FlowError (List Effects))
  | .path .. => Except FlowError (Option CorruptionPath)
  | .sites .. => Except FlowError PointerSites
  | .check _ | .checkAll => Diagnostics
  | .graph _ => Option (Except FlowError FlowGraph)

/-- How a question is asked. -/
def query : (question : Question) → Query question.Answer
  | .effects symbol => Query.effects symbol
  | .node flowNode => Query.nodeEffects Query.effects flowNode
  | .nodes symbol => Query.scriptNodes symbol
  | .path symbol pointer => Query.corruptionPath symbol pointer
  | .sites symbol pointer => Query.pointerSites symbol pointer
  | .check symbol => Query.check symbol
  | .checkAll => Query.checkAll
  | .graph id => Query.graph id

/-- Every question is answered again as before. -/
theorem repeats (question : Question) : Query.Repeats question.query := by
  cases question with
  | effects symbol => exact Query.repeats_effects symbol
  | node node => exact Query.repeats_nodeEffects node
  | nodes symbol => exact Query.repeats_overNodes _ _ _ _
  | path symbol pointer => exact Query.repeats_overNodes _ _ _ _
  | sites symbol pointer => exact Query.repeats_overNodes _ _ _ _
  | check symbol => exact Query.repeats_overNodes _ _ _ _
  | checkAll => exact Query.repeats_checkAll
  | graph id => exact Query.repeats_graph id

end Question

/-- What can be done with a checker. -/
inductive Operation where
  /-- Make a script known. -/
  | add (script : CompiledScript)
  /-- Ask a question. -/
  | ask (question : Question)

namespace Checker

/-- The answer of a checker to a question. -/
def answer (checker : Checker) (question : Question) : question.Answer :=
  (question.query checker).1

/-- The checker that something was done with. -/
def perform (checker : Checker) : Operation → Checker
  | .add script => checker.add script
  | .ask question => checker.ask question

/-- The checker that some things were done with in order. -/
def performAll (checker : Checker) (operations : List Operation) : Checker :=
  operations.foldl perform checker

variable {checker : Checker}

/-- The checker that has answered a question is the one that the question leaves. -/
theorem ask_eq (checker : Checker) (question : Question) :
    checker.ask question = (question.query checker).2 := by
  cases question <;> rfl

/-- Between questions, a question learns only. -/
theorem extends_ask (hidle : checker.pending = []) (question : Question) :
    checker.Extends (checker.ask question) := by
  rw [ask_eq]
  exact (question.repeats checker hidle).1

/-- Between questions, any questions learn only. -/
theorem extends_after (hidle : checker.pending = []) (questions : List Question) :
    checker.Extends (checker.after questions) := by
  induction questions generalizing checker with
  | nil => exact .refl checker
  | cons question rest ih =>
    have hfirst := extends_ask hidle question
    exact hfirst.trans (ih (hfirst.pending.trans hidle))

/-- Whatever was done with a checker, afterwards no script is being summarised. -/
theorem pending_performAll (hidle : checker.pending = []) (operations : List Operation) :
    (checker.performAll operations).pending = [] := by
  induction operations generalizing checker with
  | nil => exact hidle
  | cons operation rest ih =>
    refine @ih (checker.perform operation) ?_
    cases operation with
    | add script =>
      change (checker.add script).pending = []
      unfold add
      split <;> exact hidle
    | ask question => exact (extends_ask hidle question).pending.trans hidle

/-- Whatever was done with a checker, a question that it answered is answered again the same after
any further questions. -/
theorem answer_again (contracts : Contracts) (operations : List Operation) (question : Question)
    (questions : List Question) :
    let checker := (new contracts).performAll operations
    ((checker.ask question).after questions).answer question = checker.answer question := by
  intro checker
  have hidle : checker.pending = [] := pending_performAll rfl operations
  have hlater := extends_after ((extends_ask hidle question).pending.trans hidle) questions
  rw [ask_eq] at hlater
  rw [ask_eq]
  exact (question.repeats checker hidle).2 _ hlater

end Checker

end ScriptBackend

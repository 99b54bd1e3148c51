import ScriptBackend.Checker.Basic

/-!
# Questions about scripts with graphs

No question changes which scripts are known. A checker all of whose scripts have graphs never
answers with a flow error, and never reports one, whatever it was asked before.
-/

namespace ScriptBackend

namespace Query

/-- A question after which the same scripts are known. -/
def KeepsScripts {α : Type} (query : Query α) : Prop :=
  ∀ checker, (query checker).2.scripts = checker.scripts

section Frame

variable {α β : Type}

theorem keepsScripts_pure (value : α) : KeepsScripts (pure value) := fun _ => rfl

/-- Two questions in order keep the scripts if each does. -/
theorem KeepsScripts.bind {query : Query α} {next : α → Query β} (h : KeepsScripts query)
    (hnext : ∀ value, KeepsScripts (next value)) : KeepsScripts (query >>= next) := by
  intro checker
  change (next (query checker).1 (query checker).2).2.scripts = _
  rw [hnext, h]

theorem keepsScripts_get : KeepsScripts (get : Query Checker) := fun _ => rfl

/-- Asking for a graph keeps the scripts. -/
theorem keepsScripts_graph (id : ScriptId) : KeepsScripts (graph id) := by
  intro checker
  unfold graph
  cases checker.script? id <;> rfl

/-- Asking for the effects of an instruction keeps the scripts if asking for those of a callee
does. -/
theorem keepsScripts_instruction {callee : ScriptSymbol → Query Effects}
    (h : ∀ symbol, KeepsScripts (callee symbol)) (contracts : Contracts)
    (instruction : Instruction) : KeepsScripts (instruction.effects contracts callee) := by
  unfold Instruction.effects
  cases instruction.symbol? with
  | none => split <;> exact keepsScripts_pure _
  | some symbol =>
    cases symbol with
    | script symbol =>
      split
      case h_2 | h_3 => exact h symbol
      all_goals exact keepsScripts_pure _
    | _ => split <;> exact keepsScripts_pure _

/-- Asking for the effects of a node keeps the scripts if asking for those of a callee does. -/
theorem keepsScripts_nodeEffects {callee : ScriptSymbol → Query Effects}
    (h : ∀ symbol, KeepsScripts (callee symbol)) (node : FlowNode) :
    KeepsScripts (nodeEffects callee node) := by
  cases node with
  | code location instruction =>
    exact fun checker => keepsScripts_instruction h checker.contracts instruction checker
  | entry => exact keepsScripts_pure _
  | validated pointers => exact keepsScripts_pure _

/-- Asking for the effects of nodes keeps the scripts. -/
theorem keepsScripts_nodeTable {callee : ScriptSymbol → Query Effects}
    (h : ∀ symbol, KeepsScripts (callee symbol)) (nodes : List FlowNode) :
    KeepsScripts (nodeTable callee nodes) := by
  induction nodes with
  | nil => exact keepsScripts_pure _
  | cons node rest ih =>
    exact (keepsScripts_nodeEffects h node).bind fun effects => ih.bind fun table =>
      keepsScripts_pure _

/-- Summing a script up keeps the scripts. -/
theorem keepsScripts_effectsWithin (depth : Nat) (symbol : ScriptSymbol) :
    KeepsScripts (effectsWithin depth symbol) := by
  induction depth generalizing symbol with
  | zero =>
    unfold effectsWithin
    refine keepsScripts_get.bind fun checker => ?_
    split
    · exact keepsScripts_pure _
    · refine (keepsScripts_graph symbol.id).bind fun outcome => ?_
      split <;> exact keepsScripts_pure _
  | succ depth ih =>
    unfold effectsWithin
    refine keepsScripts_get.bind fun checker => ?_
    split
    · exact keepsScripts_pure _
    · refine (keepsScripts_graph symbol.id).bind fun outcome => ?_
      split
      · exact KeepsScripts.bind (fun _ => rfl) fun _ =>
          (keepsScripts_nodeTable ih _).bind fun _ _ => rfl
      · exact keepsScripts_pure _
      · exact keepsScripts_pure _

/-- Asking for the effects of all nodes keeps the scripts. -/
theorem keepsScripts_effectsOfNodes (graph : FlowGraph) : KeepsScripts (effectsOfNodes graph) :=
  keepsScripts_nodeTable (fun symbol => keepsScripts_get.bind fun checker =>
    keepsScripts_effectsWithin checker.scripts.length symbol) graph.nodes

/-- Checking a script keeps the scripts. -/
theorem keepsScripts_check (symbol : ScriptSymbol) : KeepsScripts (check symbol) := by
  refine (keepsScripts_graph symbol.id).bind fun outcome => ?_
  split
  · exact keepsScripts_pure _
  · exact keepsScripts_pure _
  · exact (keepsScripts_effectsOfNodes _).bind fun table => keepsScripts_pure _

end Frame

end Query

/-- The first letter of an internal error tells it from the report of a corrupted pointer. -/
private theorem first_ne (pointer : PointerSet) :
    (pointer.name?.getD "pointer").toList.head?.getD ' ' ≠ 'i' := by
  unfold PointerSet.name?
  cases Pointer.all.find? fun named => PointerSet.single named = pointer with
  | none => decide
  | some named => cases named <;> decide

/-- The report of a corruption path is no report of a flow error. -/
theorem CorruptionPath.diagnostic_not_mem (path : CorruptionPath) (graph : FlowGraph)
    (symbol : ScriptSymbol) (error : FlowError) :
    error.diagnostic ∉ path.diagnostics graph symbol := by
  simp only [diagnostics, List.mem_cons, List.not_mem_nil, or_false, not_or]
  constructor
  · intro h
    have hmessage := congrArg (fun diagnostic => diagnostic.message.toList.head?) h
    have hfirst : 'i' = (path.pointer.name?.getD "pointer").toList.head?.getD ' ' := by
      simpa [FlowError.diagnostic, Diagnostic.error] using hmessage
    exact first_ne path.pointer hfirst.symm
  · intro h
    have hseverity : Severity.error = Severity.info := congrArg Diagnostic.severity h
    cases hseverity

namespace Checker

/-- Making a script known adds no other. -/
theorem mem_scripts_add (checker : Checker) {script known : CompiledScript}
    (h : known ∈ (checker.add script).scripts) : known ∈ checker.scripts ∨ known = script := by
  unfold add at h
  split at h
  · obtain ⟨other, hother, rfl⟩ := List.mem_map.mp h
    split
    · exact .inr rfl
    · exact .inl hother
  · simpa using h

/-- Whether every known script has a flow graph, whatever the contracts. -/
def HasGraphs (checker : Checker) : Prop :=
  ∀ script ∈ checker.scripts, ∀ contracts, ∃ graph, FlowGraph.build script contracts = .ok graph

/-- No question is answered by a flow error, and none is reported. -/
structure NeverFails (checker : Checker) : Prop where
  /-- Every known script has a graph. -/
  graph : ∀ id error, (Query.graph id checker).1 ≠ some (.error error)
  /-- The effects of the nodes of a script are found. -/
  nodes : ∀ symbol error, (Query.scriptNodes symbol checker).1 ≠ some (.error error)
  /-- Corruption paths are searched for. -/
  path : ∀ symbol pointer error, (Query.corruptionPath symbol pointer checker).1 ≠ .error error
  /-- The nodes that have to do with a pointer are found. -/
  sites : ∀ symbol pointer error, (Query.pointerSites symbol pointer checker).1 ≠ .error error
  /-- The report on one script names no flow error. -/
  check : ∀ symbol (error : FlowError), error.diagnostic ∉ (Query.check symbol checker).1.items
  /-- The report on all scripts names no flow error. -/
  checkAll : ∀ error : FlowError, error.diagnostic ∉ (Query.checkAll checker).1.items

variable {checker : Checker}

/-- The graph of a known script is found or built. -/
private theorem graph_ne_error (h : checker.HasGraphs) (id : ScriptId) (error : FlowError) :
    (Query.graph id checker).1 ≠ some (.error error) := by
  unfold Query.graph
  cases hscript : checker.script? id with
  | none => simp
  | some script =>
    obtain ⟨graph, hgraph⟩ := h script (List.mem_of_find?_eq_some hscript) checker.contracts
    simp only [FlowCache.findOrBuild, hgraph]
    cases checker.graphs.find? script.id <;> simp

/-- A question that begins with the graph of a script goes on with a graph or without one. -/
private theorem graph_bind {α : Type} (h : checker.HasGraphs) (good : α → Prop) {id : ScriptId}
    {next : Option (Except FlowError FlowGraph) → Query α}
    (hnone : ∀ later, good (next none later).1)
    (hok : ∀ graph later, good (next (some (.ok graph)) later).1) :
    good ((Query.graph id >>= next) checker).1 := by
  change good (next (Query.graph id checker).1 (Query.graph id checker).2).1
  cases hgraph : (Query.graph id checker).1 with
  | none => exact hnone _
  | some outcome =>
    cases outcome with
    | error error => exact absurd hgraph (graph_ne_error h id error)
    | ok graph => exact hok graph _

/-- The report on a script names no flow error. -/
private theorem diagnostic_not_mem_check (h : checker.HasGraphs) (symbol : ScriptSymbol)
    (error : FlowError) : error.diagnostic ∉ (Query.check symbol checker).1.items := by
  refine graph_bind h (fun found : Diagnostics => error.diagnostic ∉ found.items)
    (fun _ => List.not_mem_nil) fun graph later => ?_
  change error.diagnostic ∉ (Diagnostics.ofList _).items
  rw [Diagnostics.items_ofList, List.mem_flatMap]
  rintro ⟨path, -, hpath⟩
  exact path.diagnostic_not_mem graph symbol error hpath

/-- The report on scripts in order names no flow error. -/
private theorem diagnostic_not_mem_checkEach (h : checker.HasGraphs) (error : FlowError)
    (scripts : List CompiledScript) :
    error.diagnostic ∉ (Query.checkEach scripts checker).1.items := by
  induction scripts generalizing checker with
  | nil => exact List.not_mem_nil
  | cons script rest ih =>
    have hkept : (Query.check script.symbol checker).2.HasGraphs := by
      unfold HasGraphs
      rw [Query.keepsScripts_check script.symbol checker]
      exact h
    change error.diagnostic ∉ (Query.check script.symbol checker).1.items ++
      (Query.checkEach rest (Query.check script.symbol checker).2).1.items
    rw [List.mem_append, not_or]
    exact ⟨diagnostic_not_mem_check h script.symbol error, ih hkept⟩

/-- A checker whose scripts have graphs answers every question. -/
theorem HasGraphs.neverFails (h : checker.HasGraphs) : checker.NeverFails where
  graph := graph_ne_error h
  nodes symbol error := by
    refine graph_bind h (fun answer : Option (Except FlowError (List Effects)) =>
      answer ≠ some (.error error)) ?_ ?_
    · exact fun _ hanswer => nomatch hanswer
    · exact fun graph later hanswer => nomatch hanswer
  path symbol pointer error := by
    refine graph_bind h (fun answer : Except FlowError (Option CorruptionPath) =>
      answer ≠ .error error) ?_ ?_
    · exact fun _ hanswer => nomatch hanswer
    · exact fun graph later hanswer => nomatch hanswer
  sites symbol pointer error := by
    refine graph_bind h (fun answer : Except FlowError PointerSites => answer ≠ .error error) ?_ ?_
    · exact fun _ hanswer => nomatch hanswer
    · exact fun graph later hanswer => nomatch hanswer
  check := diagnostic_not_mem_check h
  checkAll error := diagnostic_not_mem_checkEach h error checker.scripts

end Checker

end ScriptBackend

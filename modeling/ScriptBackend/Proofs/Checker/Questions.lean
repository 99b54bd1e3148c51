import ScriptBackend.Proofs.Checker.Asking

/-!
# Questions and what they leave behind

Between questions no script is being summarised. Whatever a checker is asked, it gets from one such
state to the next by looking up flows and by finding summaries, so what these two steps keep holds
after any number of questions.
-/

namespace ScriptBackend

/-- A question that a checker can be asked. -/
inductive Question where
  /-- What is the summary of a script? -/
  | effects (symbol : ScriptSymbol)
  /-- What are the effects of a node? -/
  | node (node : FlowNode)
  /-- What are the effects of all nodes of a script? -/
  | nodes (symbol : ScriptSymbol)
  /-- On which path does a script exit with a pointer corrupted? -/
  | path (symbol : ScriptSymbol) (pointer : PointerSet)
  /-- Which nodes of a script have to do with a pointer? -/
  | sites (symbol : ScriptSymbol) (pointer : PointerSet)
  /-- What is there to report on a script? -/
  | check (symbol : ScriptSymbol)
  /-- What is there to report on all scripts? -/
  | checkAll
  /-- What is the flow of a script? -/
  | graph (id : ScriptId)

namespace Checker

/-- The checker that has answered a question. -/
def ask (checker : Checker) : Question → Checker
  | .effects symbol => (Query.effects symbol checker).2
  | .node node => (Query.nodeEffects Query.effects node checker).2
  | .nodes symbol => (Query.scriptNodes symbol checker).2
  | .path symbol pointer => (Query.corruptionPath symbol pointer checker).2
  | .sites symbol pointer => (Query.pointerSites symbol pointer checker).2
  | .check symbol => (Query.check symbol checker).2
  | .checkAll => (Query.checkAll checker).2
  | .graph id => (Query.graph id checker).2

/-- The checker that has answered questions in order. -/
def after (checker : Checker) (questions : List Question) : Checker :=
  questions.foldl ask checker

/-- Whether a consistent checker is between questions. -/
structure Idle (checker : Checker) : Prop where
  consistent : checker.Consistent
  pending_eq : checker.pending = []

/-- A step of answering: a flow is looked up or a summary is found. -/
inductive Step : Checker → Checker → Prop where
  | graph (checker : Checker) (id : ScriptId) : Step checker (Query.graph id checker).2
  | asks {checker later : Checker} {symbol : ScriptSymbol} {effects : Effects}
      (h : Asks checker symbol effects later) : Step checker later

/-- The steps of answering that a checker takes. -/
abbrev Steps : Checker → Checker → Prop := Relation.ReflTransGen Step

variable {checker later : Checker}

/-- A step of a consistent checker learns and keeps it consistent. -/
theorem Step.keeps (h : Step checker later) (hchecker : checker.Consistent) :
    later.Consistent ∧ checker.Learns later := by
  cases h with
  | graph id => exact ⟨hchecker.graph id, checker.learns_graph id⟩
  | asks h => exact h.keeps hchecker

/-- A checker that is between questions is so after each step. -/
theorem Idle.step (h : checker.Idle) (hstep : Step checker later) : later.Idle := by
  obtain ⟨hlater, hlearns⟩ := hstep.keeps h.consistent
  exact ⟨hlater, hlearns.pending.trans h.pending_eq⟩

/-- What holds between questions and is kept by each step holds after all steps. -/
theorem Steps.invariant (property : Checker → Prop)
    (hkept : ∀ checker later, checker.Idle → Step checker later → property checker → property later)
    (h : Steps checker later) (hidle : checker.Idle) (hproperty : property checker) :
    later.Idle ∧ property later := by
  induction h with
  | refl => exact ⟨hidle, hproperty⟩
  | tail _ hstep ih => exact ⟨ih.1.step hstep, hkept _ _ ih.1 hstep ih.2⟩

/-- A checker that is between questions is so after any steps. -/
theorem Idle.steps (h : checker.Idle) (hsteps : Steps checker later) : later.Idle :=
  (hsteps.invariant (fun _ => True) (fun _ _ _ _ _ => trivial) h trivial).1

/-- A checker that is asked for nodes takes a step for each call. -/
theorem AsksAll.steps : ∀ {checker later : Checker} {nodes : List FlowNode} {table : List Effects},
    AsksAll checker nodes table later → Steps checker later
  | _, _, _, _, .nil => .refl
  | _, _, _, _, .own _ hrest => hrest.steps
  | _, _, _, _, .call _ hfirst hrest => .head (.asks hfirst) hrest.steps

end Checker

namespace Query

/-- A question that is answered from the effects of all nodes of a script. -/
def overNodes {α : Type} (id : ScriptId) (unknown : α) (failed : FlowError → α)
    (answer : FlowGraph → List Effects → α) : Query α := do
  match ← graph id with
  | none => return unknown
  | some (.error error) => return failed error
  | some (.ok graph) => return answer graph (← effectsOfNodes graph)

theorem scriptNodes_eq (symbol : ScriptSymbol) :
    scriptNodes symbol =
      overNodes symbol.id none (fun error => some (.error error)) fun _ table => some (.ok table) :=
  rfl

theorem corruptionPath_eq (symbol : ScriptSymbol) (pointer : PointerSet) :
    corruptionPath symbol pointer =
      overNodes symbol.id (.ok none) .error fun graph table =>
        .ok (graph.corruptionPath? table pointer) := rfl

theorem pointerSites_eq (symbol : ScriptSymbol) (pointer : PointerSet) :
    pointerSites symbol pointer =
      overNodes symbol.id (.ok {}) .error fun _ table => .ok
        { requiring := positionsWhere table fun effects => effects.required.contains pointer
          setting := positionsWhere table fun effects => effects.definiteSet.contains pointer
          provided := symbol.trigger.entryPointers.contains pointer } := rfl

theorem check_eq (symbol : ScriptSymbol) :
    check symbol = overNodes symbol.id {} (fun error => .ofList [error.diagnostic])
      fun graph table => .ofList
        ((graph.corruptedAtExit table).flatMap fun path => path.diagnostics graph symbol) := rfl

section

variable {α : Type} {id : ScriptId} {unknown : α} {failed : FlowError → α}
  {answer : FlowGraph → List Effects → α} {checker : Checker}

/-- A question about all nodes is answered by the flow of the script and the effects of its
nodes. -/
theorem overNodes_eq (h : checker.Consistent) :
    overNodes id unknown failed answer checker =
      match checker.flow? id with
      | none => (unknown, (graph id checker).2)
      | some (.error error) => (failed error, (graph id checker).2)
      | some (.ok found) =>
        let (table, later) := nodeTable effects found.nodes (graph id checker).2
        (answer found table, later) := by
  rw [← h.graph_fst id, overNodes, bind_apply]
  cases (graph id checker).1 with
  | none => rfl
  | some outcome => cases outcome <;> rfl

/-- A question about all nodes is answered in steps. -/
theorem steps_overNodes (h : checker.Consistent) :
    checker.Steps (overNodes id unknown failed answer checker).2 := by
  have hgraph : checker.Steps (graph id checker).2 := .single (.graph checker id)
  rw [overNodes_eq h]
  split
  · exact hgraph
  · exact hgraph
  · exact hgraph.trans (Checker.asksAll_nodeTable_effects _ (h.graph id)).steps

end

/-- Scripts are reported on in steps. -/
theorem steps_checkEach (scripts : List CompiledScript) {checker : Checker} (h : checker.Idle) :
    checker.Steps (checkEach scripts checker).2 := by
  induction scripts generalizing checker with
  | nil => exact .refl
  | cons script rest ih =>
    have hfirst : checker.Steps (check script.symbol checker).2 := by
      rw [check_eq]
      exact steps_overNodes h.consistent
    exact hfirst.trans (ih (h.steps hfirst))

end Query

namespace Checker

variable {checker : Checker}

/-- Every question is answered in steps. -/
theorem Idle.steps_ask (h : checker.Idle) (question : Question) :
    checker.Steps (checker.ask question) := by
  cases question with
  | effects symbol => exact .single (.asks (asks_effects symbol h.consistent))
  | node node =>
    cases hcallee : node.callee? with
    | none =>
      rw [ask, Query.nodeEffects_of_callee?_eq_none hcallee]
    | some symbol =>
      rw [ask, Query.nodeEffects_of_callee? hcallee]
      exact .single (.asks (asks_effects symbol h.consistent))
  | nodes symbol =>
    rw [ask, Query.scriptNodes_eq]
    exact Query.steps_overNodes h.consistent
  | path symbol pointer =>
    rw [ask, Query.corruptionPath_eq]
    exact Query.steps_overNodes h.consistent
  | sites symbol pointer =>
    rw [ask, Query.pointerSites_eq]
    exact Query.steps_overNodes h.consistent
  | check symbol =>
    rw [ask, Query.check_eq]
    exact Query.steps_overNodes h.consistent
  | checkAll => exact Query.steps_checkEach checker.scripts h
  | graph id => exact .single (.graph checker id)

/-- Questions in order are answered in steps. -/
theorem Idle.steps_after (h : checker.Idle) (questions : List Question) :
    checker.Steps (checker.after questions) := by
  induction questions generalizing checker with
  | nil => exact .refl
  | cons question rest ih =>
    have hfirst := h.steps_ask question
    exact hfirst.trans (ih (h.steps hfirst))

/-- A checker that was only made to know scripts remembers nothing else. -/
theorem addAll_new (contracts : Contracts) (scripts : List CompiledScript) :
    ∃ known, (new contracts).addAll scripts = { new contracts with scripts := known } := by
  suffices h : ∀ checker : Checker, ∃ known,
      checker.addAll scripts = { checker with scripts := known } from h (new contracts)
  induction scripts with
  | nil => exact fun checker => ⟨checker.scripts, rfl⟩
  | cons script rest ih =>
    intro checker
    obtain ⟨known, hknown⟩ := ih (checker.add script)
    refine ⟨known, ?_⟩
    change (checker.add script).addAll rest = _
    rw [hknown, add]
    split <;> rfl

/-- A checker that was only made to know scripts is between questions. -/
theorem idle_addAll_new (contracts : Contracts) (scripts : List CompiledScript) :
    ((new contracts).addAll scripts).Idle := by
  obtain ⟨known, hknown⟩ := addAll_new contracts scripts
  rw [hknown]
  refine ⟨⟨?_, List.nodup_nil, ?_, ?_⟩, rfl⟩
  · intro id graph hfound
    cases hfound
  · intro id hid
    cases hid
  · intro id effects hfound
    cases hfound

end Checker

end ScriptBackend

import ScriptBackend.Checker.Corruption
import ScriptBackend.Checker.Rules
import ScriptBackend.Flow.Cache

/-!
# Pointer checker

The checker knows a number of scripts and answers questions about their pointers. The summary of a
script says what it requires, what it sets and what it may leave corrupted; calls count with the
summary of the script they call, so summaries are computed along the calls. A script that is being
summarised counts as having no effects, which ends every recursion. Graphs and summaries are
remembered, so an answer may depend on what was asked before.

The summary of a call is found within a given depth of nested summaries. The number of known scripts
is always enough, because each nested summary is that of another known script.
-/

namespace ScriptBackend

/-- The scripts that are known and what was learnt about them. -/
structure Checker where
  /-- The contracts of commands. -/
  contracts : Contracts := {}
  /-- The known scripts, in the order in which their identities were first added. -/
  scripts : List CompiledScript := []
  /-- The graphs built so far. -/
  graphs : FlowCache := {}
  /-- The summaries found so far, the latest first. -/
  summaries : List (ScriptId × Effects) := []
  /-- The scripts that are being summarised. -/
  pending : List ScriptId := []
  deriving Repr

/-- A question to a checker, which may learn from answering it. -/
abbrev Query := StateM Checker

namespace Checker

/-- A checker that knows no script. -/
def new (contracts : Contracts) : Checker := { contracts }

/-- The known script of an identity. -/
def script? (checker : Checker) (id : ScriptId) : Option CompiledScript :=
  checker.scripts.find? fun script => script.id = id

/-- Make a script known. One of the same identity is replaced and keeps its place. -/
def add (checker : Checker) (script : CompiledScript) : Checker :=
  if (checker.script? script.id).isSome then
    { checker with
      scripts := checker.scripts.map fun known => if known.id = script.id then script else known }
  else { checker with scripts := checker.scripts ++ [script] }

/-- Make scripts known, in order. -/
def addAll (checker : Checker) (scripts : List CompiledScript) : Checker :=
  scripts.foldl add checker

/-- What is known about a script without looking at it: the summary found before, or no effects if
it is being summarised. -/
def remembered? (checker : Checker) (id : ScriptId) : Option Effects :=
  match checker.summaries.lookup id with
  | some effects => some effects
  | none => if id ∈ checker.pending then some .none else none

end Checker

namespace Query

/-- The flow graph of a known script. -/
def graph (id : ScriptId) : Query (Option (Except FlowError FlowGraph)) := fun checker =>
  match checker.script? id with
  | none => (none, checker)
  | some script =>
    let (outcome, graphs) := checker.graphs.findOrBuild script checker.contracts
    (some outcome, { checker with graphs })

/-- Count a script as being summarised. -/
def beginSummary (id : ScriptId) : Query Unit := fun checker =>
  ((), { checker with pending := id :: checker.pending })

/-- Remember the summary of a script that was being summarised. -/
def endSummary (id : ScriptId) (effects : Effects) : Query Effects := fun checker =>
  (effects, { checker with
    pending := checker.pending.erase id, summaries := (id, effects) :: checker.summaries })

/-- The effects of a node, given a way to find the effects of a called script. -/
def nodeEffects (callee : ScriptSymbol → Query Effects) : FlowNode → Query Effects
  | .entry => pure .none
  | .validated pointers => pure (Effects.none.sets pointers)
  | .code _ instruction => fun checker => instruction.effects checker.contracts callee checker

/-- The effects of nodes, asked for in order. -/
def nodeTable (callee : ScriptSymbol → Query Effects) : List FlowNode → Query (List Effects)
  | [] => pure []
  | node :: rest => do
    let effects ← nodeEffects callee node
    let table ← nodeTable callee rest
    return effects :: table

end Query

namespace FlowGraph

/-- What some node of a graph corrupts. -/
def corruptedSomewhere (table : List Effects) : PointerSet :=
  table.foldl (fun set effects => set ∪ effects.corrupted) ∅

/-- The members of a set that the script can exit with corrupted. -/
def corruptedAtExit (graph : FlowGraph) (table : List Effects) : List CorruptionPath :=
  (corruptedSomewhere table).members.filterMap fun pointer => graph.corruptionPath? table pointer

/-- Whether a node is an instruction or the entry, and no outcome of a comparison. -/
def isOutcome : FlowNode → Bool
  | .validated _ => true
  | .entry | .code .. => false

/-- The summary of a graph by a table of the effects of each node: all that is required, all that an
instruction sets on every outcome, and all that the script can exit with corrupted. -/
def summary (graph : FlowGraph) (table : List Effects) : Effects where
  required := table.foldl (fun set effects => set ∪ effects.required) ∅
  set := (graph.nodes.zip table).foldl (fun set (node, effects) =>
    if isOutcome node then set else set ∪ effects.definiteSet) ∅
  corrupted := (graph.corruptedAtExit table).foldl (fun set path => set ∪ path.pointer) ∅

end FlowGraph

namespace Query

/-- The summary of a script within a depth of nested summaries. A script that is not known, that has
no graph or that is being summarised has no effects. -/
def effectsWithin : Nat → ScriptSymbol → Query Effects
  | depth, symbol => do
    match (← get).remembered? symbol.id with
    | some effects => return effects
    | none =>
      match ← graph symbol.id with
      | some (.ok graph) =>
        match depth with
        | 0 => return .none
        | depth + 1 =>
          beginSummary symbol.id
          let table ← nodeTable (effectsWithin depth) graph.nodes
          endSummary symbol.id (graph.summary table)
      | some (.error _) | none => return .none

/-- The summary of a script. -/
def effects (symbol : ScriptSymbol) : Query Effects := do
  effectsWithin (← get).scripts.length symbol

/-- The effects of every node of a graph. -/
def effectsOfNodes (graph : FlowGraph) : Query (List Effects) := nodeTable effects graph.nodes

/-- The effects of every node of a known script. -/
def scriptNodes (symbol : ScriptSymbol) : Query (Option (Except FlowError (List Effects))) := do
  match ← graph symbol.id with
  | none => return none
  | some (.error error) => return some (.error error)
  | some (.ok graph) => return some (.ok (← effectsOfNodes graph))

/-- A path on which a script exits with a pointer corrupted, if there is one; a script that is not
known has none. -/
def corruptionPath (symbol : ScriptSymbol) (pointer : PointerSet) :
    Query (Except FlowError (Option CorruptionPath)) := do
  match ← graph symbol.id with
  | none => return .ok none
  | some (.error error) => return .error error
  | some (.ok graph) => return .ok (graph.corruptionPath? (← effectsOfNodes graph) pointer)

end Query

/-- The nodes of a script that have to do with one pointer. -/
structure PointerSites where
  /-- The nodes that require the pointer. -/
  requiring : List Nat := []
  /-- The nodes that set it on every outcome. -/
  setting : List Nat := []
  /-- Whether the trigger of the script provides it at the start. -/
  provided : Bool := false
  deriving DecidableEq, Repr

/-- The positions in a table whose effects satisfy a condition. -/
def positionsWhere (table : List Effects) (condition : Effects → Bool) : List Nat :=
  (table.zipIdx.filter fun (effects, _) => condition effects).map Prod.snd

namespace Query

/-- The nodes of a script that have to do with a pointer; a script that is not known has none. -/
def pointerSites (symbol : ScriptSymbol) (pointer : PointerSet) :
    Query (Except FlowError PointerSites) := do
  match ← graph symbol.id with
  | none => return .ok {}
  | some (.error error) => return .error error
  | some (.ok graph) =>
    let table ← effectsOfNodes graph
    return .ok
      { requiring := positionsWhere table fun effects => effects.required.contains pointer
        setting := positionsWhere table fun effects => effects.definiteSet.contains pointer
        provided := symbol.trigger.entryPointers.contains pointer }

end Query

/-- The diagnostics of a corruption path: an error where the pointer is corrupted, followed by the
exit it reaches. -/
def CorruptionPath.diagnostics (path : CorruptionPath) (graph : FlowGraph) (symbol : ScriptSymbol) :
    List Diagnostic :=
  let name := path.pointer.name?.getD "pointer"
  let site := graph.node path.trail.head
  let exit := graph.node path.exit
  [.error (site.span?.getD .unknown)
      (name ++ " is corrupted by '" ++ site.text ++ "' and not set again before " ++ symbol.text ++
        " exits"),
    .info (exit.span?.getD .unknown) (symbol.text ++ " exits here with " ++ name ++ " corrupted")]

namespace Query

/-- Report every pointer that a script can exit with corrupted, in the order of its bits; a script
that is not known has nothing to report. -/
def check (symbol : ScriptSymbol) : Query Diagnostics := do
  match ← graph symbol.id with
  | none => return {}
  | some (.error error) => return .ofList [error.diagnostic]
  | some (.ok graph) =>
    let table ← effectsOfNodes graph
    return .ofList
      ((graph.corruptedAtExit table).flatMap fun path => path.diagnostics graph symbol)

/-- Report on scripts in order. -/
def checkEach : List CompiledScript → Query Diagnostics
  | [] => pure {}
  | script :: rest => do
    let first ← check script.symbol
    let others ← checkEach rest
    return first ++ others

/-- Report on every known script, in the order in which they were added. -/
def checkAll : Query Diagnostics := do checkEach (← get).scripts

end Query

end ScriptBackend

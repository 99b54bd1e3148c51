import ScriptBackend.Flow.Build

/-!
# Remembered flow graphs

A cache keeps the graph of every script that was asked for, by the identity of the script. The graph
that was built first is kept, also when a script of the same identity is asked for later. A script
whose graph cannot be built leaves the cache as it was.
-/

namespace ScriptBackend

/-- Flow graphs by script. -/
structure FlowCache where
  /-- The graphs, the latest first; an identity occurs once. -/
  entries : List (ScriptId × FlowGraph) := []
  deriving DecidableEq, Repr

namespace FlowCache

/-- The graph that is kept for a script. -/
def find? (cache : FlowCache) (id : ScriptId) : Option FlowGraph := cache.entries.lookup id

/-- The graph of a script, kept from now on if it can be built. -/
def findOrBuild (cache : FlowCache) (script : CompiledScript) (contracts : Contracts) :
    Except FlowError FlowGraph × FlowCache :=
  match cache.find? script.id with
  | some graph => (.ok graph, cache)
  | none =>
    match FlowGraph.build script contracts with
    | .ok graph => (.ok graph, ⟨(script.id, graph) :: cache.entries⟩)
    | .error error => (.error error, cache)

/-- The number of graphs that are kept. -/
def size (cache : FlowCache) : Nat := cache.entries.length

/-- Whether no graph is kept. -/
def isEmpty (cache : FlowCache) : Bool := cache.entries.isEmpty

variable {cache : FlowCache} {script : CompiledScript} {contracts : Contracts}

/-- The flow of a script is the graph that is kept for it, or else is built. -/
theorem findOrBuild_fst : (cache.findOrBuild script contracts).1 =
    match cache.find? script.id with
    | some graph => .ok graph
    | none => FlowGraph.build script contracts := by
  unfold findOrBuild
  cases cache.find? script.id with
  | some graph => rfl
  | none => cases FlowGraph.build script contracts <;> rfl

/-- After the flow of a script was asked for, its graph is kept if it has one; for other scripts the
same is kept as before. -/
theorem find?_findOrBuild_snd (id : ScriptId) : (cache.findOrBuild script contracts).2.find? id =
    if id = script.id then (cache.findOrBuild script contracts).1.toOption else cache.find? id := by
  by_cases hid : id = script.id
  · rw [if_pos hid, hid]
    unfold findOrBuild
    cases hfound : cache.find? script.id with
    | some graph => exact hfound
    | none =>
      cases FlowGraph.build script contracts with
      | error error => exact hfound
      | ok graph => exact List.lookup_cons_self
  · rw [if_neg hid]
    unfold findOrBuild
    cases cache.find? script.id with
    | some graph => rfl
    | none =>
      cases FlowGraph.build script contracts with
      | error error => rfl
      | ok graph => simp [find?, List.lookup_cons, beq_false_of_ne hid]

end FlowCache

end ScriptBackend

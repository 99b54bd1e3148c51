import ScriptBackend.Proofs.Flow.StepGraph
import ScriptBackend.Proofs.Lowering.SuccessOutcomes

/-!
# Ways out of the nodes of emitted scripts

The kinds of the edges that leave a node of a flow graph are those of the steps of its instruction.
A step past the last instruction is no edge, so a node may have fewer ways out than its instruction
asks for. In an emitted script this never happens: the last instruction is the return after the
body, and every label, also one that is bound behind the last statement, lands at it or before it.
Control therefore leaves every node in all the ways that its instruction has, and leaves the script
by returns and jumps only.
-/

namespace ScriptBackend

/-- Of edges that are listed by parts, none is from a node that no part has edges from. -/
private theorem filter_source_flatMap_eq_nil {α : Type} {part : α → List (Edge FlowEdge)}
    {entries : List α} {node : Nat}
    (h : ∀ entry ∈ entries, ∀ edge ∈ part entry, edge.source ≠ node) :
    (entries.flatMap part).filter (fun edge => edge.source = node) = [] := by
  refine List.filter_eq_nil_iff.mpr fun edge hedge => ?_
  obtain ⟨entry, hentry, hedge⟩ := List.mem_flatMap.mp hedge
  simpa using h entry hentry edge hedge

/-- Of edges that are listed by the positions of their sources, those from one position are the part
of that position. -/
private theorem filter_source_flatMap {α : Type} {part : α × Nat → List (Edge FlowEdge)}
    (hpart : ∀ entry, ∀ edge ∈ part entry, edge.source = entry.2 + 1) {xs : List α} {index : Nat}
    {x : α} (hx : xs[index]? = some x) {start position : Nat}
    (hposition : position = start + index) :
    ((xs.zipIdx start).flatMap part).filter (fun edge => edge.source = position + 1) =
      part (x, position) := by
  induction xs generalizing index start with
  | nil => cases hx
  | cons first rest ih =>
    rw [List.zipIdx_cons, List.flatMap_cons, List.filter_append]
    cases index with
    | zero =>
      obtain rfl : first = x := by simpa using hx
      obtain rfl : position = start := hposition
      have hfirst : (part (first, position)).filter (fun edge => edge.source = position + 1) =
          part (first, position) := by
        refine List.filter_eq_self.mpr fun edge hedge => ?_
        simp [hpart _ edge hedge]
      have hrest : ((rest.zipIdx (position + 1)).flatMap part).filter
          (fun edge => edge.source = position + 1) = [] := by
        refine filter_source_flatMap_eq_nil fun entry hentry edge hedge => ?_
        have hle := List.le_snd_of_mem_zipIdx hentry
        have hsource := hpart entry edge hedge
        omega
      rw [hfirst, hrest, List.append_nil]
    | succ index =>
      have hfirst : (part (first, start)).filter (fun edge => edge.source = position + 1) = [] := by
        refine List.filter_eq_nil_iff.mpr fun edge hedge => ?_
        have hsource := hpart _ edge hedge
        simp only [decide_eq_true_eq]
        omega
      rw [hfirst, List.nil_append]
      exact ih hx (by omega)

namespace CompiledScript

/-- The kinds of the edges that leave a node of the flow graph of a script, by what the node is. -/
inductive LeavesBy (script : CompiledScript) : FlowNode → List FlowEdge → Prop where
  /-- Control starts in one way. -/
  | entry : LeavesBy script .entry [.entry]
  /-- Returns and jumps leave the script. -/
  | leave {location : Location} {instruction : Instruction}
      (hopcode : instruction.opcode = .leave ∨ instruction.opcode = .jump) :
      LeavesBy script (.code location instruction) []
  /-- A branch that compares nothing is always taken. -/
  | branch {location : Location} {instruction : Instruction}
      (hopcode : instruction.opcode = .branch) :
      LeavesBy script (.code location instruction) [.branch]
  /-- A comparison goes on or is taken. -/
  | compare {location : Location} {instruction : Instruction}
      (hopcode : instruction.opcode.isConditional = true) :
      LeavesBy script (.code location instruction) [.fallthrough, .branch]
  /-- A choice goes on or takes a case that has keys. -/
  | choose {location : Location} {instruction : Instruction} {id : Nat} {table : SwitchTable}
      (hopcode : instruction.opcode = .switch) (hid : instruction.table? = some id)
      (htable : script.table? id = some table) :
      LeavesBy script (.code location instruction)
        (.fallthrough ::
          List.replicate (table.cases.countP fun entry => !entry.keys.isEmpty) .switchCase)
  /-- Any other instruction goes on. -/
  | next {location : Location} {instruction : Instruction} (hopcode : instruction.opcode.GoesOn) :
      LeavesBy script (.code location instruction) [.fallthrough]
  /-- An outcome goes on. -/
  | outcome {pointers : PointerSet} : LeavesBy script (.validated pointers) [.conditional]

/-- Whether no step of a script leads past its last instruction. -/
structure StaysInside (script : CompiledScript) : Prop where
  /-- Control never goes on from the last instruction. -/
  last : ∃ before place, script.sequence = before ++ [place] ∧ place.2.opcode.isTerminal = true
  /-- The label of every branch lands. -/
  branches : ∀ place ∈ script.sequence, place.2.opcode.isBranch = true →
    ∃ label target, place.2.label? = some label ∧ script.landing? label = some target
  /-- Every choice has a table, and the labels of its cases land. -/
  choices : ∀ place ∈ script.sequence, place.2.opcode = .switch →
    ∃ id table, place.2.table? = some id ∧ script.table? id = some table ∧
      ∀ entry ∈ table.cases, ∃ target, script.landing? entry.label = some target

variable {script : CompiledScript} {position : Nat} {place : Location × Instruction}

/-- An instruction from which control may go on is not the last. -/
theorem StaysInside.lt_length (h : script.StaysInside)
    (hplace : script.sequence[position]? = some place) (hgoes : place.2.opcode.isTerminal = false) :
    position + 1 < script.sequence.length := by
  obtain ⟨before, last, hsequence, hlast⟩ := h.last
  obtain ⟨hlt, rfl⟩ := List.getElem?_eq_some_iff.mp hplace
  by_contra hend
  have hposition : position = before.length := by
    rw [hsequence, List.length_append, List.length_singleton] at hlt hend
    omega
  subst hposition
  simp [hsequence, hlast] at hgoes

/-- Where the labels of all cases of a switch table land, each case with keys is a choice. -/
private theorem length_choices (script : CompiledScript) {instruction : Instruction} {id : Nat}
    {table : SwitchTable} (hid : instruction.table? = some id)
    (htable : script.table? id = some table)
    (hlands : ∀ entry ∈ table.cases, ∃ target, script.landing? entry.label = some target) :
    ((script.keyedCases instruction).filterMap fun entry => script.landing? entry.label).length =
      table.cases.countP fun entry => !entry.keys.isEmpty := by
  have hkeyed : script.keyedCases instruction =
      table.cases.filter fun entry => !entry.keys.isEmpty := by
    simp [keyedCases, hid, htable]
  rw [hkeyed, List.countP_eq_length_filter, List.filterMap_length_eq_length]
  intro entry hentry
  obtain ⟨target, htarget⟩ := hlands entry (List.mem_filter.mp hentry).1
  rw [htarget, Option.isSome_some]

/-- The ways that control takes from an instruction of a script that no step leads out of. -/
theorem StaysInside.leavesBy_successors (h : script.StaysInside)
    (hplace : script.sequence[position]? = some place) :
    script.LeavesBy (.code place.1 place.2)
      ((script.successors position place.2).map Prod.snd) := by
  have hmem := List.mem_of_getElem? hplace
  unfold successors
  cases hterminal : place.2.opcode.isTerminal with
  | true =>
    cases hopcode : place.2.opcode <;> rw [hopcode] at hterminal <;> cases hterminal
    · obtain ⟨label, target, hlabel, hlanding⟩ := h.branches place hmem (by rw [hopcode]; rfl)
      simpa [hlabel, hlanding, Opcode.isBranch] using LeavesBy.branch hopcode
    · simpa [Opcode.isBranch] using LeavesBy.leave (.inr hopcode)
    · simpa [Opcode.isBranch] using LeavesBy.leave (.inl hopcode)
  | false =>
    have hlt := h.lt_length hplace hterminal
    by_cases hbranch : place.2.opcode.isBranch = true
    · obtain ⟨label, target, hlabel, hlanding⟩ := h.branches place hmem hbranch
      have hswitch : place.2.opcode ≠ .switch := fun hopcode => by
        rw [hopcode] at hbranch
        cases hbranch
      have hconditional : place.2.opcode.isConditional = true := by
        rw [Opcode.isConditional, hbranch, Bool.true_and, bne_iff_ne]
        intro hopcode
        rw [hopcode] at hterminal
        cases hterminal
      simpa [hlt, hbranch, hswitch, hlabel, hlanding] using LeavesBy.compare hconditional
    · by_cases hswitch : place.2.opcode = .switch
      · obtain ⟨id, table, hid, htable, hlands⟩ := h.choices place hmem hswitch
        have hlength := script.length_choices hid htable hlands
        simpa [hlt, hswitch, Opcode.isTerminal, Opcode.isBranch, hlength, Function.comp_def] using
          LeavesBy.choose hswitch hid htable
      · simpa [hlt, hbranch, hswitch] using
          LeavesBy.next ⟨hterminal, by simpa using hbranch, hswitch⟩

end CompiledScript

namespace FlowGraph

variable {graph : FlowGraph} {script : CompiledScript} {contracts : Contracts}

/-- The kinds of the edges that leave a node, in the order in which the edges were added. -/
def departures (graph : FlowGraph) (node : Nat) : List FlowEdge :=
  (graph.outgoing node).reverse.map Edge.kind

/-- Contracting outcomes keeps the kinds of the edges that leave the other nodes. -/
theorem ContractsTo.departures_eq {count : Nat} {edges : List (Edge FlowEdge)}
    (h : graph.ContractsTo count edges) {node : Nat} (hlt : node < count) :
    graph.departures node = (edges.filter fun edge => edge.source = node).map Edge.kind := by
  have hkept : isOutcome (graph.node node) = false := by
    rw [Bool.eq_false_iff, ne_eq, h.isOutcome_iff node (Nat.lt_of_lt_of_le hlt h.count_le)]
    omega
  rw [← h.contracted_eq, contracted, List.filter_map, List.map_map, List.filter_filter, departures,
    Digraph.outgoing, List.reverse_reverse]
  congr 1
  refine List.filter_congr fun edge _ => ?_
  by_cases hsource : edge.source = node
  · simp [hsource, hkept]
  · simp [hsource]

/-- The kinds of the edges that leave the node of an instruction are those of its steps. -/
theorem departures_position (h : build script contracts = .ok graph) {position : Nat}
    {place : Location × Instruction} (hplace : script.sequence[position]? = some place) :
    graph.departures (position + 1) = (script.successors position place.2).map Prod.snd := by
  have hlt := (List.getElem?_eq_some_iff.mp hplace).1
  have hstart : ((if script.sequence.isEmpty then [] else [⟨0, 1, .entry⟩] :
      List (Edge FlowEdge)).filter fun edge => edge.source = position + 1) = [] := by
    split <;> simp
  rw [(contractsTo_build h).departures_eq (Nat.succ_lt_succ hlt), CompiledScript.steps,
    List.filter_append, hstart, List.nil_append,
    filter_source_flatMap (fun entry edge hedge => ?_) hplace (Nat.zero_add position).symm,
    List.map_map]
  · rfl
  · obtain ⟨_, -, rfl⟩ := List.mem_map.mp hedge
    rfl

/-- Control starts in one way if there is an instruction. -/
theorem departures_entry (h : build script contracts = .ok graph) (hne : script.sequence ≠ []) :
    graph.departures 0 = [.entry] := by
  rw [(contractsTo_build h).departures_eq (Nat.succ_pos _), CompiledScript.steps,
    List.filter_append, if_neg (by simpa using hne),
    filter_source_flatMap_eq_nil fun entry _ edge hedge => ?_, List.append_nil]
  · rfl
  · obtain ⟨_, -, rfl⟩ := List.mem_map.mp hedge
    exact Nat.succ_ne_zero _

/-- An outcome goes on in one way. -/
theorem departures_outcome (h : build script contracts = .ok graph) {node : Nat}
    (houtcome : isOutcome (graph.node node) = true) : graph.departures node = [.conditional] := by
  obtain ⟨-, after, -, hout, hkind⟩ := (contractsTo_build h).hasPassages node houtcome
  rw [departures, hout, ← hkind]
  rfl

/-- If no step of a script leads out of it, control leaves every node of its flow graph in all the
ways that the node has. -/
theorem leavesBy_departures (h : build script contracts = .ok graph) (hinside : script.StaysInside)
    {node : Nat} (hnode : node < graph.size) :
    script.LeavesBy (graph.node node) (graph.departures node) := by
  have hcontracts := contractsTo_build h
  cases houtcome : isOutcome (graph.node node) with
  | true =>
    rw [departures_outcome h houtcome]
    cases hkind : graph.node node with
    | validated pointers => exact .outcome
    | _ =>
      rw [hkind] at houtcome
      cases houtcome
  | false =>
    have hlt : node < script.sequence.length + 1 := by
      have hiff := hcontracts.isOutcome_iff node hnode
      rw [houtcome] at hiff
      simp only [Bool.false_eq_true, false_iff] at hiff
      omega
    cases node with
    | zero =>
      obtain ⟨before, place, hsequence, -⟩ := hinside.last
      have hentry := departures_entry h (by simp [hsequence])
      obtain ⟨outcomes, hnodes⟩ := exists_nodes_build h
      rw [hentry, FlowGraph.node, hnodes]
      exact .entry
    | succ position =>
      have hplace := List.getElem?_eq_getElem (Nat.lt_of_succ_lt_succ hlt)
      rw [node_position h hplace, departures_position h hplace]
      exact hinside.leavesBy_successors hplace

end FlowGraph

namespace Generator

variable {generator : Generator} {decl : ScriptDecl} {script : CompiledScript}

/-- No step of an emitted script leads past its last instruction. -/
theorem staysInside_script (hhandlers : generator.handlers.AreTrailers)
    (hsingle : SingleDefaults (Stmt.switchesOf decl.body))
    (hrun : (generator.script decl).1 = .ok script) : script.StaysInside := by
  obtain ⟨trailers, htrailers⟩ := hhandlers.exists_trailers
  have hformed := wellFormed_script hhandlers hsingle hrun
  obtain ⟨before, hends⟩ := exists_items_eq htrailers hrun
  refine ⟨?_, fun place => exists_landing?_of_isBranch htrailers hrun,
    fun place hplace hswitch => ?_⟩
  · have hcode := script.map_snd_sequence
    rw [hends, realCode_append] at hcode
    obtain ⟨places, last, hsequence, -, hlast⟩ := List.map_eq_append_iff.mp hcode
    obtain ⟨place, rfl, hplace⟩ := List.map_eq_singleton_iff.mp hlast
    exact ⟨places, place, hsequence, by rw [hplace]; rfl⟩
  · obtain ⟨table, htable, hid⟩ := hformed.choices place.2
      (CompiledScript.mem_instructions_of_mem_sequence hplace) hswitch
    refine ⟨table.id, table, hid, hformed.table?_id htable, fun entry hentry => ?_⟩
    refine CompiledScript.exists_landing? hends rfl ?_
    rw [CompiledScript.boundLabels_items]
    exact hformed.entries table htable entry hentry

/-- Control leaves every node of the flow graph of an emitted script in all the ways that the node
has, so it never runs off the end of the script. -/
theorem script_departures (hhandlers : generator.handlers.AreTrailers)
    (hsingle : SingleDefaults (Stmt.switchesOf decl.body))
    (hrun : (generator.script decl).1 = .ok script) (contracts : Contracts) :
    ∃ graph, FlowGraph.build script contracts = .ok graph ∧
      ∀ node < graph.size, script.LeavesBy (graph.node node) (graph.departures node) := by
  obtain ⟨graph, hbuild⟩ := (wellFormed_script hhandlers hsingle hrun).exists_build contracts
  have hinside := staysInside_script hhandlers hsingle hrun
  exact ⟨graph, hbuild, fun node hnode => FlowGraph.leavesBy_departures hbuild hinside hnode⟩

/-- A script that chooses again and again while it finds a player, and ends in a conditional whose
end is bound behind the last statement. -/
private def chooseWhileFound : ScriptDecl :=
  let zero : Expr := .literal (.int 0) .int none .unknown
  let find : CallHead :=
    ⟨.command, "find", false, .int, some (.command ⟨"find", [], [.int]⟩), .unknown⟩
  let found : Expr := .condition (.call find []) (.compare .notEquals) zero .unknown
  let choice : List Case :=
    [.mk [] true [] .unknown, .mk [zero] false [.leave [] .unknown] .unknown]
  ⟨⟨.proc, "watch", [], []⟩, [], [.whileLoop found (.switch .int zero choice .unknown) .unknown,
    .ifThen found (.block [] .unknown) .unknown], .unknown⟩

/-- The contract of a search that is counted as found only on success. -/
private def watchContracts : Contracts := ⟨[("find", { set := ⟨1⟩, conditional := true })]⟩

theorem script_departures_chooseWhileFound :
    ∃ script graph, (({} : Generator).script chooseWhileFound).1 = .ok script ∧
      FlowGraph.build script watchContracts = .ok graph ∧ graph.size = 19 ∧
      ∀ node < graph.size, script.LeavesBy (graph.node node) (graph.departures node) := by
  obtain ⟨script, hscript⟩ := exists_script_of_isOk
    (show (({} : Generator).script chooseWhileFound).1.isOk = true by decide +kernel)
  have hhandlers : ({} : Generator).handlers.AreTrailers := by
    simp [Handlers.AreTrailers]
  have hsingle : SingleDefaults (Stmt.switchesOf chooseWhileFound.body) := by decide +kernel
  obtain ⟨graph, hbuild, hleaves⟩ :=
    script_departures hhandlers hsingle hscript watchContracts
  refine ⟨script, graph, hscript, hbuild, ?_, hleaves⟩
  have hsize : (((({} : Generator).script chooseWhileFound).1.toOption.bind fun script =>
      (FlowGraph.build script watchContracts).toOption).map Digraph.size) = some 19 := by
    decide +kernel
  simpa [hscript, hbuild, Except.toOption] using hsize

end Generator

end ScriptBackend

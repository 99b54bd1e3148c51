import Mathlib.Data.List.Count
import ScriptBackend.Proofs.Checker.Answers
import ScriptBackend.Proofs.Flow.Links
import ScriptBackend.Proofs.Lowering.References

/-!
# Emitted scripts are well-formed

A script that a generator emits has distinct labels, starts with its entry, and refers to nothing
that it does not have. Its switch tables are those of the switches of its declaration. So it has a
flow graph under any contracts, and a checker that knows emitted scripts only is never stopped by a
flow error. This holds of declarations in which no switch has two default cases, and of generators
whose handlers push argument trailers.
-/

namespace ScriptBackend

/-- Whether every handler pushes an argument trailer. -/
def Handlers.AreTrailers (handlers : Handlers) : Prop :=
  ∀ entry ∈ handlers.entries, ∃ fixed, entry.2 = .argumentTrailer fixed

/-- Handlers that push argument trailers are the handlers of some trailers. -/
theorem Handlers.AreTrailers.exists_trailers {handlers : Handlers} (h : handlers.AreTrailers) :
    ∃ trailers : Trailers, handlers = trailers.handlers := by
  obtain ⟨entries⟩ := handlers
  suffices hentries : ∃ trailers : Trailers, entries = trailers.handlers.entries by
    obtain ⟨trailers, rfl⟩ := hentries
    exact ⟨trailers, rfl⟩
  unfold AreTrailers at h
  induction entries with
  | nil => exact ⟨[], rfl⟩
  | cons entry rest ih =>
    obtain ⟨command, handler⟩ := entry
    rw [List.forall_mem_cons] at h
    obtain ⟨⟨fixed, rfl⟩, hrest⟩ := h
    obtain ⟨trailers, htrailers⟩ := ih hrest
    refine ⟨(command, fixed) :: trailers, ?_⟩
    change (command, Handler.argumentTrailer fixed) :: rest = _ :: trailers.handlers.entries
    rw [htrailers]

/-- The handlers of trailers push argument trailers. -/
theorem Trailers.areTrailers_handlers (trailers : Trailers) : trailers.handlers.AreTrailers := by
  intro entry hentry
  obtain ⟨⟨command, fixed⟩, -, rfl⟩ := List.mem_map.mp hentry
  exact ⟨fixed, rfl⟩

namespace CompiledScript

/-- The labels of the blocks of a script, in layout order. -/
def labels (script : CompiledScript) : List Label := script.blocks.map Block.label

/-- Whether an instruction chooses a case by the switch table of a number. -/
def choosesBy (id : Nat) (instruction : Instruction) : Bool :=
  instruction.opcode = .switch && instruction.table? = some id

/-- What holds of a script that was emitted for a declaration with some switches. -/
structure WellFormed (script : CompiledScript) (scope : Scope)
    (switches : List (Expr × List Case)) : Prop where
  /-- No two blocks have the same label. -/
  nodup_labels : script.labels.Nodup
  /-- The first block is the entry. -/
  head_labels : script.labels.head? = some .entry
  /-- Every branch leads to a block. -/
  branches : ∀ instruction ∈ script.instructions, instruction.opcode.isBranch = true →
    ∃ label ∈ script.labels, instruction.label? = some label
  /-- Every case of a switch table leads to a block. -/
  entries : ∀ table ∈ script.tables, ∀ entry ∈ table.cases, entry.label ∈ script.labels
  /-- Every switch table is numbered by its position. -/
  numbers : ∀ (index : Nat) (table : SwitchTable),
    script.tables[index]? = some table → table.id = index
  /-- The switch tables have one entry for each case of the switches. -/
  fits : List.Forall₂ (SwitchTable.Fits scope) script.tables switches
  /-- Exactly one instruction chooses by each switch table. -/
  chosen_once : ∀ table ∈ script.tables, script.instructions.countP (choosesBy table.id) = 1
  /-- Every choice is by a switch table of the script. -/
  choices : ∀ instruction ∈ script.instructions, instruction.opcode = .switch →
    ∃ table ∈ script.tables, instruction.table? = some table.id

variable {script : CompiledScript} {scope : Scope} {switches : List (Expr × List Case)}

/-- The choices by a table are counted among the tables that are chosen by. -/
private theorem countP_choosesBy (instructions : List Instruction) (id : Nat) :
    instructions.countP (choosesBy id) = (chosenTables instructions).count (some id) := by
  induction instructions with
  | nil => rfl
  | cons instruction rest ih =>
    by_cases hswitch : instruction.opcode = .switch
    · simp [chosenTables, choosesBy, hswitch, List.countP_cons, List.count_cons] at ih ⊢
      omega
    · simpa [chosenTables, choosesBy, hswitch] using ih

/-- A script whose items have no exits left is well-formed. -/
theorem wellFormed_of_refers (hnodup : (boundLabels script.items).Nodup)
    (hentry : (boundLabels script.items).head? = some .entry)
    (h : Refers scope 0 script.items [] script.tables switches) :
    script.WellFormed scope switches := by
  obtain ⟨hbranches, hentries, hnumbers, hchoices, hfits⟩ := h
  rw [boundLabels_items] at hnodup hentry
  simp only [boundLabels_items, codeOf_items, List.append_nil] at hbranches hentries hchoices
  have hnumber (index : Nat) (table : SwitchTable) (htable : script.tables[index]? = some table) :
      table.id = index := by
    have hid := congrArg (fun ids => ids[index]?) hnumbers
    simp only [List.getElem?_map, htable, Option.map_some] at hid
    obtain ⟨hlt, -⟩ := List.getElem?_eq_some_iff.mp htable
    simpa [hlt] using hid
  refine ⟨hnodup, hentry, hbranches, hentries, hnumber, hfits, ?_, ?_⟩
  · intro table htable
    obtain ⟨index, hlt, rfl⟩ := List.mem_iff_getElem.mp htable
    rw [countP_choosesBy, hchoices, hnumber index _ (List.getElem?_eq_getElem hlt),
      List.count_map_of_injective _ _ fun _ _ => Option.some.inj]
    exact List.count_eq_one_of_mem (List.nodup_range' 1) (by simpa using hlt)
  · intro instruction hmem hswitch
    have hchosen : instruction.table? ∈ chosenTables script.instructions :=
      List.mem_map_of_mem (List.mem_filter.mpr ⟨hmem, by simpa using hswitch⟩)
    rw [hchoices] at hchosen
    obtain ⟨index, hindex, htable⟩ := List.mem_map.mp hchosen
    have hlt : index < script.tables.length := by simpa using hindex
    refine ⟨script.tables[index], List.getElem_mem hlt, ?_⟩
    rw [hnumber index _ (List.getElem?_eq_getElem hlt), htable]

/-- The switch table of a number of a well-formed script is found by its number. -/
theorem WellFormed.table?_id (h : script.WellFormed scope switches) {table : SwitchTable}
    (htable : table ∈ script.tables) : script.table? table.id = some table := by
  cases hfound : script.table? table.id with
  | none =>
    have hnone := List.find?_eq_none.mp hfound table htable
    simp at hnone
  | some found =>
    have hid : found.id = table.id := by simpa using List.find?_some hfound
    obtain ⟨index, hindex⟩ := List.mem_iff_getElem?.mp htable
    obtain ⟨index', hindex'⟩ := List.mem_iff_getElem?.mp (List.mem_of_find?_eq_some hfound)
    rw [h.numbers index _ hindex, h.numbers index' _ hindex'] at hid
    rw [← hindex, ← hindex', hid]

/-- A well-formed script has a flow graph. -/
theorem WellFormed.exists_build (h : script.WellFormed scope switches) (contracts : Contracts) :
    ∃ graph, FlowGraph.build script contracts = .ok graph := by
  refine exists_build_eq_ok h.branches (fun instruction hmem hswitch => ?_) contracts
  obtain ⟨table, htable, hid⟩ := h.choices instruction hmem hswitch
  exact ⟨table.id, table, hid, h.table?_id htable, h.entries table htable⟩

end CompiledScript

namespace Generator

variable {generator : Generator} {decl : ScriptDecl} {script : CompiledScript}

/-- What a script that a generator emits refers to, it has. -/
theorem refers_script {trailers : Trailers} (hhandlers : generator.handlers = trailers.handlers)
    (hrun : (generator.script decl).1 = .ok script) :
    Refers generator.scope 0 script.items [] script.tables (Stmt.switchesOf decl.body) := by
  obtain ⟨items, code, hbody, hleave, hitems, -⟩ := script_lays hhandlers hrun
  have hplain := isPlain_defaultLeaveCode decl.symbol.returns decl.span code hleave
  have hparts := (Refers.bind .entry).append (hbody.refers.append (Refers.code hplain))
  rw [hitems]
  simpa using hparts

/-- A script that a generator emits is well-formed. -/
theorem wellFormed_script (hhandlers : generator.handlers.AreTrailers)
    (hsingle : SingleDefaults (Stmt.switchesOf decl.body))
    (hrun : (generator.script decl).1 = .ok script) :
    script.WellFormed generator.scope (Stmt.switchesOf decl.body) := by
  obtain ⟨trailers, htrailers⟩ := hhandlers.exists_trailers
  obtain ⟨items, code, -, -, hitems, hnodup⟩ := script_lays htrailers hrun
  exact CompiledScript.wellFormed_of_refers (hnodup hsingle) (by rw [hitems]; rfl)
    (refers_script htrailers hrun)

end Generator

/-- Whether a script was emitted for some declaration in which no switch has two default cases, by a
generator whose handlers push argument trailers. -/
def CompiledScript.IsEmitted (script : CompiledScript) : Prop :=
  ∃ (generator : Generator) (decl : ScriptDecl), generator.handlers.AreTrailers ∧
    SingleDefaults (Stmt.switchesOf decl.body) ∧ (generator.script decl).1 = .ok script

/-- A script that a generator emits is well-formed and has a flow graph under any contracts, and a
checker that knows emitted scripts only never fails. -/
theorem Generator.script_wellFormed {generator : Generator} {decl : ScriptDecl}
    {script : CompiledScript} (hhandlers : generator.handlers.AreTrailers)
    (hsingle : SingleDefaults (Stmt.switchesOf decl.body))
    (hrun : (generator.script decl).1 = .ok script) :
    script.WellFormed generator.scope (Stmt.switchesOf decl.body) ∧
      (∀ contracts, ∃ graph, FlowGraph.build script contracts = .ok graph) ∧
      ∀ checker : Checker, (∀ known ∈ checker.scripts, known.IsEmitted) →
        (checker.add script).NeverFails := by
  have hformed := wellFormed_script hhandlers hsingle hrun
  refine ⟨hformed, hformed.exists_build, fun checker hemitted => ?_⟩
  refine Checker.HasGraphs.neverFails fun known hknown => ?_
  rcases checker.mem_scripts_add hknown with hold | rfl
  · obtain ⟨generator', decl', hhandlers', hsingle', hrun'⟩ := hemitted known hold
    exact (wellFormed_script hhandlers' hsingle' hrun').exists_build
  · exact hformed.exists_build

/-- A script that says something and then chooses between a case and the default. -/
private def sayAndChoose : ScriptDecl :=
  let one : Expr := .literal (.int 1) .int none .unknown
  let hello : Expr := .literal (.string "hello") .string none .unknown
  let say : CallHead := ⟨.command, "say", false, .unit, some (.command ⟨"say", [], []⟩), .unknown⟩
  let choice : List Case := [.mk [one] false [] .unknown, .mk [] true [] .unknown]
  ⟨⟨.proc, "greet", [], []⟩, [],
    [.evaluate (.call say [hello]) .unknown, .switch .int one choice .unknown], .unknown⟩

/-- A generator with a trailer for what is said. -/
private def sayGenerator : Generator := { handlers := ⟨[("say", .argumentTrailer 0)]⟩ }

theorem Generator.script_wellFormed_sayAndChoose :
    ∃ script, (sayGenerator.script sayAndChoose).1 = .ok script ∧
      script.WellFormed {} (Stmt.switchesOf sayAndChoose.body) := by
  obtain ⟨script, hscript⟩ :=
    exists_script_of_isOk (show (sayGenerator.script sayAndChoose).1.isOk = true by decide +kernel)
  have hhandlers : sayGenerator.handlers.AreTrailers := by
    simp [Handlers.AreTrailers, sayGenerator]
  have hsingle : SingleDefaults (Stmt.switchesOf sayAndChoose.body) := by decide +kernel
  exact ⟨script, hscript, (script_wellFormed hhandlers hsingle hscript).1⟩

end ScriptBackend

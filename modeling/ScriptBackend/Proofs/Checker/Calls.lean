import Mathlib.Logic.Relation
import ScriptBackend.Proofs.Checker.Answers
import ScriptBackend.Proofs.Flow.Contraction

/-!
# Calls between scripts

A gosub or a jump calls a script. All other instructions have effects of their own, which follow
from the contracts alone. The flow of a known script is its graph or the error that it has none; it
depends on the script and the contracts, and on no question that was asked before.
-/

namespace ScriptBackend

namespace Instruction

/-- The script that an instruction calls. -/
def callee? (instruction : Instruction) : Option ScriptSymbol :=
  match instruction.symbol? with
  | some (.script symbol) =>
    if instruction.opcode = .gosub ∨ instruction.opcode = .jump then some symbol else none
  | _ => none

/-- The effects of an instruction itself: a command has those of its contract, and an access to a
game variable requires the pointer that it goes through. -/
def ownEffects (contracts : Contracts) (instruction : Instruction) : Effects :=
  match instruction.symbol? with
  | some (.command symbol) =>
    if instruction.opcode = .command then contracts.get symbol.name else .none
  | some (.gameVar symbol) =>
    if instruction.opcode ∈ [.pushVar, .pushVar2, .popVar, .popVar2] then
      Effects.none.requires (.single (symbol.accessPointer instruction.opcode))
    else .none
  | _ => .none

/-- The effects of an instruction are those of the script it calls, or its own. -/
theorem effects_eq {m : Type → Type} [Monad m] (contracts : Contracts)
    (callee : ScriptSymbol → m Effects) (instruction : Instruction) :
    instruction.effects contracts callee =
      match instruction.callee? with
      | some symbol => callee symbol
      | none => pure (instruction.ownEffects contracts) := by
  obtain ⟨opcode, operand, span⟩ := instruction
  unfold effects callee? ownEffects
  cases hsymbol : (Instruction.mk opcode operand span).symbol? with
  | none => cases opcode <;> rfl
  | some symbol => cases symbol <;> cases opcode <;> rfl

/-- A marker calls nothing and has no effects. -/
theorem of_isMarker {instruction : Instruction} (h : instruction.opcode.isMarker = true)
    (contracts : Contracts) :
    instruction.callee? = none ∧ instruction.ownEffects contracts = .none := by
  obtain ⟨opcode, operand, span⟩ := instruction
  obtain rfl : opcode = .lineNumber := by
    cases opcode <;> first | rfl | cases h
  unfold callee? ownEffects
  cases (Instruction.mk .lineNumber operand span).symbol? with
  | none => exact ⟨rfl, rfl⟩
  | some symbol => cases symbol <;> exact ⟨rfl, rfl⟩

/-- An instruction that calls a script has no effects of its own. -/
theorem ownEffects_of_callee? {instruction : Instruction} {symbol : ScriptSymbol}
    (h : instruction.callee? = some symbol) (contracts : Contracts) :
    instruction.ownEffects contracts = .none := by
  unfold callee? at h
  unfold ownEffects
  split at h
  · next hsymbol => rw [hsymbol]
  · cases h

end Instruction

namespace FlowNode

/-- The script that a node calls. -/
def callee? (node : FlowNode) : Option ScriptSymbol := node.instruction?.bind Instruction.callee?

/-- The effects of a node itself. -/
def ownEffects (contracts : Contracts) : FlowNode → Effects
  | .entry => .none
  | .validated pointers => Effects.none.sets pointers
  | .code _ instruction => instruction.ownEffects contracts

end FlowNode

/-- The effects of a node that calls a script are those of the script. -/
theorem Query.nodeEffects_of_callee? {node : FlowNode} {symbol : ScriptSymbol}
    (h : node.callee? = some symbol) (callee : ScriptSymbol → Query Effects) (checker : Checker) :
    nodeEffects callee node checker = callee symbol checker := by
  cases node with
  | entry => cases h
  | validated pointers => cases h
  | code location instruction =>
    have hcallee : instruction.callee? = some symbol := h
    change instruction.effects checker.contracts callee checker = _
    rw [instruction.effects_eq, hcallee]

/-- The effects of a node that calls no script are its own, and nothing is learnt. -/
theorem Query.nodeEffects_of_callee?_eq_none {node : FlowNode} (h : node.callee? = none)
    (callee : ScriptSymbol → Query Effects) (checker : Checker) :
    nodeEffects callee node checker = (node.ownEffects checker.contracts, checker) := by
  cases node with
  | entry => rfl
  | validated pointers => rfl
  | code location instruction =>
    have hcallee : instruction.callee? = none := h
    change instruction.effects checker.contracts callee checker = _
    rw [instruction.effects_eq, hcallee]
    rfl

/-- The instructions of a graph are those of its script, markers apart. -/
theorem FlowGraph.exists_code_iff {script : CompiledScript} {contracts : Contracts}
    {graph : FlowGraph} (h : build script contracts = .ok graph) (property : Instruction → Prop)
    (hmarker : ∀ instruction, property instruction → instruction.opcode.isMarker = false) :
    (∃ location instruction, .code location instruction ∈ graph.nodes ∧ property instruction) ↔
      ∃ instruction ∈ script.instructions, property instruction := by
  obtain ⟨outcomes, hnodes⟩ := exists_nodes_build h
  constructor
  · rintro ⟨location, instruction, hmem, hproperty⟩
    refine ⟨instruction, ?_, hproperty⟩
    have hplace : (location, instruction) ∈ script.sequence := by simpa [hnodes] using hmem
    exact CompiledScript.mem_instructions_of_mem_sequence hplace
  · rintro ⟨instruction, hmem, hproperty⟩
    obtain ⟨block, hblock, hinstruction⟩ := List.mem_flatMap.mp hmem
    obtain ⟨position, hposition⟩ := List.mem_iff_getElem?.mp hblock
    obtain ⟨index, hindex⟩ := List.mem_iff_getElem?.mp hinstruction
    refine ⟨⟨position, index⟩, instruction, ?_, hproperty⟩
    have hplace : (⟨position, index⟩, instruction) ∈ script.sequence :=
      CompiledScript.mem_sequence.mpr ⟨block, hposition, hindex, hmarker instruction hproperty⟩
    simpa [hnodes] using hplace

namespace Checker

/-- The flow of a known script: its graph or why it has none. -/
def flow? (checker : Checker) (id : ScriptId) : Option (Except FlowError FlowGraph) :=
  (checker.script? id).map fun script => FlowGraph.build script checker.contracts

/-- Whether a known script has a graph. -/
def HasGraph (checker : Checker) (id : ScriptId) : Prop :=
  ∃ graph, checker.flow? id = some (.ok graph)

/-- Whether an instruction of a known script calls a script. -/
def Calls (checker : Checker) (caller callee : ScriptId) : Prop :=
  ∃ script, checker.script? caller = some script ∧ ∃ instruction ∈ script.instructions, ∃ symbol,
    instruction.callee? = some symbol ∧ symbol.id = callee

variable {checker : Checker}

/-- The flow of a known script is built from the script. -/
theorem flow?_eq_some_iff {id : ScriptId} {outcome : Except FlowError FlowGraph} :
    checker.flow? id = some outcome ↔ ∃ script, checker.script? id = some script ∧
      FlowGraph.build script checker.contracts = outcome :=
  Option.map_eq_some_iff

/-- A known script from which a graph can be built has one. -/
theorem hasGraph_of_isOk {id : ScriptId} (script : CompiledScript)
    (hscript : checker.script? id = some script)
    (hbuild : (FlowGraph.build script checker.contracts).isOk = true) : checker.HasGraph id := by
  cases hgraph : FlowGraph.build script checker.contracts with
  | error error =>
    rw [hgraph] at hbuild
    cases hbuild
  | ok graph => exact ⟨graph, flow?_eq_some_iff.mpr ⟨script, hscript, hgraph⟩⟩

/-- The calls of a script with a graph are those of its nodes. -/
theorem calls_iff {caller callee : ScriptId} {graph : FlowGraph}
    (h : checker.flow? caller = some (.ok graph)) :
    checker.Calls caller callee ↔
      ∃ node ∈ graph.nodes, ∃ symbol, node.callee? = some symbol ∧ symbol.id = callee := by
  obtain ⟨script, hscript, hbuild⟩ := flow?_eq_some_iff.mp h
  have hcode := FlowGraph.exists_code_iff hbuild
    (fun instruction => ∃ symbol, instruction.callee? = some symbol ∧ symbol.id = callee)
    fun instruction ⟨symbol, hsymbol, _⟩ => by
      by_contra hmarker
      rw [(Instruction.of_isMarker (by simpa using hmarker) checker.contracts).1] at hsymbol
      cases hsymbol
  have hcalls : checker.Calls caller callee ↔ ∃ instruction ∈ script.instructions, ∃ symbol,
      instruction.callee? = some symbol ∧ symbol.id = callee := by
    simp [Calls, hscript]
  rw [hcalls, ← hcode]
  constructor
  · rintro ⟨location, instruction, hmem, hcallee⟩
    exact ⟨_, hmem, hcallee⟩
  · rintro ⟨node, hmem, symbol, hsymbol, hid⟩
    cases node with
    | entry => cases hsymbol
    | validated pointers => cases hsymbol
    | code location instruction => exact ⟨location, instruction, hmem, symbol, hsymbol, hid⟩

/-- A checker that was made to know scripts knows these and those it knew before. -/
theorem mem_scripts_addAll {known : CompiledScript} {scripts : List CompiledScript}
    (h : known ∈ (checker.addAll scripts).scripts) : known ∈ checker.scripts ∨ known ∈ scripts := by
  induction scripts generalizing checker with
  | nil => exact .inl h
  | cons script rest ih =>
    rcases ih h with hknown | hknown
    · rcases checker.mem_scripts_add hknown with hold | rfl
      · exact .inl hold
      · exact .inr List.mem_cons_self
    · exact .inr (List.mem_cons_of_mem _ hknown)

/-- The calls of a checker that was only made to know scripts are those of their instructions. -/
theorem exists_of_calls_addAll_new {contracts : Contracts} {scripts : List CompiledScript}
    {caller callee : ScriptId} (h : ((new contracts).addAll scripts).Calls caller callee) :
    ∃ script ∈ scripts, script.id = caller ∧
      ∃ symbol ∈ script.instructions.filterMap Instruction.callee?, symbol.id = callee := by
  obtain ⟨script, hscript, instruction, hinstruction, symbol, hsymbol, hcallee⟩ := h
  have hid : script.id = caller := by simpa using List.find?_some hscript
  rcases mem_scripts_addAll (List.mem_of_find?_eq_some hscript) with hnone | hmem
  · exact absurd hnone List.not_mem_nil
  · exact ⟨script, hmem, hid, symbol, List.mem_filterMap.mpr ⟨instruction, hinstruction, hsymbol⟩,
      hcallee⟩

/-- Whether a checker knows the same scripts by the same contracts as another one. -/
structure Agrees (checker other : Checker) : Prop where
  scripts : other.scripts = checker.scripts
  contracts : other.contracts = checker.contracts

/-- Checkers that agree have the same flows. -/
theorem Agrees.flow? {other : Checker} (h : checker.Agrees other) (id : ScriptId) :
    other.flow? id = checker.flow? id := by
  unfold Checker.flow? script?
  rw [h.scripts, h.contracts]

/-- Checkers that agree have graphs of the same scripts. -/
theorem Agrees.hasGraph_iff {other : Checker} (h : checker.Agrees other) {id : ScriptId} :
    other.HasGraph id ↔ checker.HasGraph id := by
  unfold HasGraph
  rw [h.flow?]

theorem Agrees.trans {other last : Checker} (h : checker.Agrees other) (hlast : other.Agrees last) :
    checker.Agrees last :=
  ⟨hlast.scripts.trans h.scripts, hlast.contracts.trans h.contracts⟩

end Checker

end ScriptBackend

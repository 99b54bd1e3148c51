import ScriptBackend.Flow.Cache
import ScriptBackend.Proofs.Flow.Links
import ScriptBackend.Proofs.Flow.Sequence

/-!
# Which scripts have no flow graph

A flow graph cannot be built exactly when some instruction is defective: it branches without a label
or to a label that no block bears, or it chooses without a switch table, by a table that is not
there, or by a table with a keyed case whose label no block bears. The error is that of the first
defective instruction in layout order. Nothing else is an error: a label may be borne by several
blocks or lead past the last instruction, and a case without keys may have any label.
-/

namespace ScriptBackend

/-- Whether an element is the first of a list with a property. -/
inductive FirstWith {α : Type} (P : α → Prop) : List α → α → Prop where
  /-- The first element has it. -/
  | here {x : α} {rest : List α} (hfirst : P x) : FirstWith P (x :: rest) x
  /-- The first element does not have it. -/
  | later {x y : α} {rest : List α} (hskip : ¬P y) (hrest : FirstWith P rest x) :
      FirstWith P (y :: rest) x

namespace FirstWith

variable {α β : Type} {P : α → Prop} {xs : List α} {x : α}

theorem mem_and_holds (h : FirstWith P xs x) : x ∈ xs ∧ P x := by
  induction h with
  | here hfirst => exact ⟨List.mem_cons_self, hfirst⟩
  | later hskip hrest ih => exact ⟨List.mem_cons_of_mem _ ih.1, ih.2⟩

theorem nil_iff : FirstWith P [] x ↔ False :=
  ⟨fun h => (by cases h), False.elim⟩

/-- The first element counts if it has the property, else the rest is asked. -/
theorem cons_iff {y : α} : FirstWith P (y :: xs) x ↔ P y ∧ x = y ∨ ¬P y ∧ FirstWith P xs x := by
  constructor
  · rintro (hfirst | ⟨hskip, hrest⟩)
    · exact .inl ⟨hfirst, rfl⟩
    · exact .inr ⟨hskip, hrest⟩
  · rintro (⟨hfirst, rfl⟩ | ⟨hskip, hrest⟩)
    · exact .here hfirst
    · exact .later hskip hrest

/-- A list with an element that has the property has a first one. -/
theorem exists_of_mem (hmem : x ∈ xs) (hx : P x) : ∃ first, FirstWith P xs first := by
  induction xs with
  | nil => cases hmem
  | cons y rest ih =>
    by_cases hy : P y
    · exact ⟨y, .here hy⟩
    · have hrest : x ∈ rest := (List.mem_cons.mp hmem).resolve_left fun heq => hy (heq ▸ hx)
      obtain ⟨first, hfirst⟩ := ih hrest
      exact ⟨first, .later hy hfirst⟩

/-- The first element that is kept and has the property is the first of those that are kept. -/
theorem filter_iff {keep : α → Bool} :
    FirstWith P (xs.filter keep) x ↔ FirstWith (fun x => keep x = true ∧ P x) xs x := by
  induction xs with
  | nil => simp [nil_iff]
  | cons y rest ih =>
    rw [List.filter_cons]
    split
    · next hy => simp [cons_iff, hy, ih]
    · next hy => simp [cons_iff, hy, ih]

/-- The first element of a list of images is the image of the first. -/
theorem map_iff {f : β → α} {zs : List β} :
    FirstWith P (zs.map f) x ↔ ∃ z, FirstWith (fun z => P (f z)) zs z ∧ f z = x := by
  induction zs with
  | nil => simp [nil_iff]
  | cons y rest ih =>
    rw [List.map_cons, cons_iff, ih]
    by_cases hy : P (f y) <;> simp [cons_iff, hy, eq_comm]

/-- What is found in a list is its first element that was asked for. -/
theorem find?_eq_some_iff {asked : α → Bool} :
    xs.find? asked = some x ↔ FirstWith (fun x => asked x = true) xs x := by
  induction xs with
  | nil => simp [nil_iff]
  | cons y rest ih =>
    rw [List.find?_cons, cons_iff, ← ih]
    cases asked y <;> simp [eq_comm]

end FirstWith

/-- Two computations in a row fail exactly when the first fails or the second fails for its
result. -/
theorem andThen_eq_error_iff {α β ε : Type} {first : Except ε α} {next : α → Except ε β}
    {error : ε} :
    first >>= next = .error error ↔
      first = .error error ∨ ∃ x, first = .ok x ∧ next x = .error error := by
  cases first <;> simp [bind, Except.bind]

/-- A computation whose result is only changed fails exactly as it does. -/
theorem andThen_pure_eq_error_iff {α β ε : Type} {first : Except ε α} {change : α → β}
    {error : ε} : (do return change (← first)) = .error error ↔ first = .error error := by
  cases first <;> simp [bind, Except.bind, pure, Except.pure]

/-- Results of a list fail exactly with the error of the first element that has one. -/
theorem mapM_eq_error_iff {α β ε : Type} {f : α → Except ε β} {xs : List α} {error : ε} :
    xs.mapM f = .error error ↔
      ∃ x, FirstWith (fun x => ∃ error, f x = .error error) xs x ∧ f x = .error error := by
  induction xs with
  | nil => simp [FirstWith.nil_iff, pure, Except.pure]
  | cons y rest ih =>
    rw [List.mapM_cons, andThen_eq_error_iff]
    cases hy : f y with
    | error first => simp [FirstWith.cons_iff, hy]
    | ok value => simp [FirstWith.cons_iff, hy, andThen_eq_error_iff, ih, pure, Except.pure]

namespace CompiledScript

/-- Whether a case has a key but leads to a label that no block bears. -/
def LeadsAstray (script : CompiledScript) (case : TableCase) : Prop :=
  case.keys ≠ [] ∧ case.label ∉ script.blocks.map Block.label

/-- Why an instruction of a script has no flow. -/
inductive Defect (script : CompiledScript) (instruction : Instruction) : FlowCause → Prop where
  /-- A branch names no label. -/
  | noLabel (hbranch : instruction.opcode.isBranch = true) (hlabel : instruction.label? = none) :
      Defect script instruction (.missingOperand instruction.opcode .label)
  /-- A branch names a label that no block bears. -/
  | unknownLabel {label : Label} (hbranch : instruction.opcode.isBranch = true)
      (hlabel : instruction.label? = some label)
      (hunknown : label ∉ script.blocks.map Block.label) :
      Defect script instruction (.unknownLabel label)
  /-- A switch names no table. -/
  | noTable (hswitch : instruction.opcode = .switch) (htable : instruction.table? = none) :
      Defect script instruction (.missingOperand .switch .table)
  /-- A switch names a table that is not there. -/
  | unknownTable {id : Nat} (hswitch : instruction.opcode = .switch)
      (hid : instruction.table? = some id) (hunknown : ∀ table ∈ script.tables, table.id ≠ id) :
      Defect script instruction (.unknownTable id)
  /-- A case of the table of a switch leads astray; the first such case counts. -/
  | unknownCase {id : Nat} {table : SwitchTable} {case : TableCase}
      (hswitch : instruction.opcode = .switch) (hid : instruction.table? = some id)
      (htable : FirstWith (fun table => table.id = id) script.tables table)
      (hcase : FirstWith script.LeadsAstray table.cases case) :
      Defect script instruction (.unknownLabel case.label)

/-- Whether an instruction of a script has no flow. -/
def IsDefective (script : CompiledScript) (instruction : Instruction) : Prop :=
  ∃ cause, script.Defect instruction cause

/-- Whether all that an instruction of a script names is there: the label of a branch, the table of
a switch, and the labels of all keyed cases of the table. -/
structure Resolves (script : CompiledScript) (instruction : Instruction) : Prop where
  /-- Some block bears the label of a branch. -/
  branch : instruction.opcode.isBranch = true →
    ∃ label ∈ script.blocks.map Block.label, instruction.label? = some label
  /-- The table of a switch is there, and blocks bear the labels of its cases or these have no
  keys. -/
  switch : instruction.opcode = .switch → ∃ id table, instruction.table? = some id ∧
    script.table? id = some table ∧
    ∀ case ∈ table.cases, case.keys = [] ∨ case.label ∈ script.blocks.map Block.label

variable {script : CompiledScript} {instruction : Instruction} {error : FlowError}

/-- A branch is defective for want of a label. -/
private theorem defect_branch_iff (hbranch : instruction.opcode.isBranch = true)
    {cause : FlowCause} :
    script.Defect instruction cause ↔
      instruction.label? = none ∧ cause = .missingOperand instruction.opcode .label ∨
      ∃ label, instruction.label? = some label ∧ label ∉ script.blocks.map Block.label ∧
        cause = .unknownLabel label := by
  have hopcode : instruction.opcode ≠ .switch := by
    intro hswitch
    rw [hswitch] at hbranch
    cases hbranch
  constructor
  · rintro (⟨-, hlabel⟩ | ⟨-, hlabel, hunknown⟩ | ⟨hswitch, -⟩ | ⟨hswitch, -, -⟩ |
      ⟨hswitch, -, -, -⟩)
    · exact .inl ⟨hlabel, rfl⟩
    · exact .inr ⟨_, hlabel, hunknown, rfl⟩
    all_goals exact absurd hswitch hopcode
  · rintro (⟨hlabel, rfl⟩ | ⟨label, hlabel, hunknown, rfl⟩)
    · exact .noLabel hbranch hlabel
    · exact .unknownLabel hbranch hlabel hunknown

/-- A switch is defective for want of a table, or by a case of its table. -/
private theorem defect_switch_iff (hswitch : instruction.opcode = .switch) {cause : FlowCause} :
    script.Defect instruction cause ↔
      instruction.table? = none ∧ cause = .missingOperand .switch .table ∨
      ∃ id, instruction.table? = some id ∧
        (script.table? id = none ∧ cause = .unknownTable id ∨
        ∃ table case, script.table? id = some table ∧
          FirstWith script.LeadsAstray table.cases case ∧ cause = .unknownLabel case.label) := by
  have hbranch : instruction.opcode.isBranch ≠ true := by simp [hswitch, Opcode.isBranch]
  have hnone (id : Nat) : script.table? id = none ↔ ∀ table ∈ script.tables, table.id ≠ id := by
    simp [table?]
  have hsome (id : Nat) (table : SwitchTable) : script.table? id = some table ↔
      FirstWith (fun table => table.id = id) script.tables table := by
    simp [table?, FirstWith.find?_eq_some_iff]
  simp only [hnone, hsome]
  constructor
  · rintro (⟨hbranch', -⟩ | ⟨hbranch', -, -⟩ | ⟨-, htable⟩ | ⟨-, hid, hunknown⟩ |
      ⟨-, hid, htable, hcase⟩)
    · exact absurd hbranch' hbranch
    · exact absurd hbranch' hbranch
    · exact .inl ⟨htable, rfl⟩
    · exact .inr ⟨_, hid, .inl ⟨hunknown, rfl⟩⟩
    · exact .inr ⟨_, hid, .inr ⟨_, _, htable, hcase, rfl⟩⟩
  · rintro (⟨htable, rfl⟩ | ⟨id, hid, ⟨hunknown, rfl⟩ | ⟨table, case, htable, hcase, rfl⟩⟩)
    · exact .noTable hswitch htable
    · exact .unknownTable hswitch hid hunknown
    · exact .unknownCase hswitch hid htable hcase

/-- An instruction that neither branches nor chooses by a table is not defective. -/
private theorem not_defect (hbranch : instruction.opcode.isBranch ≠ true)
    (hswitch : instruction.opcode ≠ .switch) (cause : FlowCause) :
    ¬script.Defect instruction cause := by
  rintro (⟨hbranch', -⟩ | ⟨hbranch', -, -⟩ | ⟨hswitch', -⟩ | ⟨hswitch', -, -⟩ | ⟨hswitch', -, -, -⟩)
  · exact hbranch hbranch'
  · exact hbranch hbranch'
  all_goals exact hswitch hswitch'

/-- An instruction is not defective if all that it names is there. -/
private theorem Resolves.not_isDefective (h : script.Resolves instruction) :
    ¬script.IsDefective instruction := by
  rintro ⟨cause, hdefect⟩
  by_cases hbranch : instruction.opcode.isBranch = true
  · obtain ⟨label, hbound, hlabel⟩ := h.branch hbranch
    simp only [defect_branch_iff hbranch, hlabel, Option.some.injEq, reduceCtorEq, false_and,
      false_or] at hdefect
    obtain ⟨_, rfl, hunknown, -⟩ := hdefect
    exact hunknown hbound
  · by_cases hswitch : instruction.opcode = .switch
    · obtain ⟨id, table, hid, htable, hcases⟩ := h.switch hswitch
      simp only [defect_switch_iff hswitch, hid, Option.some.injEq, reduceCtorEq, false_and,
        false_or] at hdefect
      obtain ⟨_, rfl, ⟨hnone, -⟩ | ⟨other, case, hother, hfirst, -⟩⟩ := hdefect
      · rw [htable] at hnone
        cases hnone
      · rw [htable] at hother
        cases hother
        obtain ⟨hmem, hkeys, hunknown⟩ := hfirst.mem_and_holds
        exact (hcases case hmem).elim hkeys hunknown
    · exact not_defect hbranch hswitch cause hdefect

/-- A label cannot be resolved exactly if no block bears it. -/
private theorem resolve_eq_error_iff {label : Label} :
    script.resolve instruction label = .error error ↔
      label ∉ script.blocks.map Block.label ∧
        error = .ofInstruction instruction (.unknownLabel label) := by
  have hnone : label ∉ script.blocks.map Block.label ↔ script.blockIndex? label = none := by
    rw [blockIndex?, lastIndexOf?_eq_none_iff]
    simp
  rw [hnone, resolve]
  cases script.blockIndex? label <;> simp [eq_comm]

/-- A branch has no links exactly if it is defective. -/
private theorem branchLinks_eq_error_iff (hbranch : instruction.opcode.isBranch = true)
    (outcome : Option SuccessOutcome) :
    script.branchLinks instruction outcome = .error error ↔
      ∃ cause, script.Defect instruction cause ∧ error = .ofInstruction instruction cause := by
  simp only [branchLinks, defect_branch_iff hbranch]
  cases instruction.label? with
  | none => simp [eq_comm]
  | some label =>
    rw [andThen_pure_eq_error_iff, resolve_eq_error_iff]
    simp

/-- The keyed cases of a table cannot be resolved exactly if one of them leads astray. -/
private theorem mapM_resolve_eq_error_iff {cases : List TableCase} :
    (cases.filter fun case => !case.keys.isEmpty).mapM
        (fun case => script.resolve instruction case.label) = .error error ↔
      ∃ case, FirstWith script.LeadsAstray cases case ∧
        error = .ofInstruction instruction (.unknownLabel case.label) := by
  have hastray : (fun case : TableCase => (!case.keys.isEmpty) = true ∧
      ∃ error, script.resolve instruction case.label = .error error) = script.LeadsAstray := by
    funext case
    simp [LeadsAstray, resolve_eq_error_iff]
  rw [mapM_eq_error_iff]
  simp only [FirstWith.filter_iff, hastray]
  simp only [resolve_eq_error_iff]
  constructor
  · rintro ⟨case, hfirst, -, herror⟩
    exact ⟨case, hfirst, herror⟩
  · rintro ⟨case, hfirst, herror⟩
    exact ⟨case, hfirst, hfirst.mem_and_holds.2.2, herror⟩

/-- A switch has no links exactly if it is defective. -/
private theorem switchLinks_eq_error_iff (hswitch : instruction.opcode = .switch) :
    script.switchLinks instruction = .error error ↔
      ∃ cause, script.Defect instruction cause ∧ error = .ofInstruction instruction cause := by
  simp only [switchLinks, defect_switch_iff hswitch]
  cases instruction.table? with
  | none => simp [hswitch, eq_comm]
  | some id =>
    cases htable : script.table? id with
    | none => simp [htable, eq_comm]
    | some table =>
      simp only [htable]
      rw [andThen_pure_eq_error_iff, mapM_resolve_eq_error_iff]
      simp [htable]

/-- An instruction has no links exactly if it is defective, wherever it stands. -/
private theorem links_eq_error_iff {contracts : Contracts} {sequence : List Instruction}
    {position : Nat} :
    script.links contracts sequence position instruction = .error error ↔
      ∃ cause, script.Defect instruction cause ∧ error = .ofInstruction instruction cause := by
  unfold links
  split
  · next hbranch => exact andThen_pure_eq_error_iff.trans (branchLinks_eq_error_iff hbranch _)
  · next hbranch =>
    split
    · next hswitch => exact andThen_pure_eq_error_iff.trans (switchLinks_eq_error_iff hswitch)
    · next hswitch => simp [not_defect hbranch hswitch, bind, Except.bind, pure, Except.pure]

/-- The sequence holds the instructions that are no markers, in layout order. -/
private theorem map_snd_sequence_eq_filter (script : CompiledScript) :
    script.sequence.map Prod.snd =
      script.instructions.filter fun instruction => !instruction.opcode.isMarker := by
  rw [sequence_eq, map_snd_flatMap_placesOf, instructions, List.filter_flatMap]
  rfl

/-- No marker is defective. -/
private theorem isMarker_eq_false_of_isDefective (h : script.IsDefective instruction) :
    instruction.opcode.isMarker = false := by
  obtain ⟨cause, hdefect⟩ := h
  by_contra hmarker
  have hopcode : instruction.opcode = .lineNumber := by
    cases hopcode : instruction.opcode <;> simp_all [Opcode.isMarker]
  exact not_defect (by simp [hopcode, Opcode.isBranch]) (by simp [hopcode]) cause hdefect

/-- The first defective instruction is the first of the sequence. -/
private theorem firstWith_sequence_iff :
    FirstWith script.IsDefective (script.sequence.map Prod.snd) instruction ↔
      FirstWith script.IsDefective script.instructions instruction := by
  have hkept : (fun instruction : Instruction => (!instruction.opcode.isMarker) = true ∧
      script.IsDefective instruction) = script.IsDefective := by
    funext instruction
    refine propext (and_iff_right_of_imp fun hdefective => ?_)
    simp [isMarker_eq_false_of_isDefective hdefective]
  rw [map_snd_sequence_eq_filter, FirstWith.filter_iff, hkept]

/-- The instructions of a list have no links exactly for the error of the first defective one. -/
private theorem mapM_links_eq_error_iff {contracts : Contracts} {sequence : List Instruction} :
    sequence.zipIdx.mapM (fun (instruction, position) =>
        script.links contracts sequence position instruction) = .error error ↔
      ∃ instruction, FirstWith script.IsDefective sequence instruction ∧
        ∃ cause, script.Defect instruction cause ∧ error = .ofInstruction instruction cause := by
  have hfails : (fun place : Instruction × Nat =>
      ∃ error, script.links contracts sequence place.2 place.1 = .error error) =
        fun place => script.IsDefective place.1 := by
    funext place
    simp only [links_eq_error_iff]
    simp [IsDefective]
  have hfirst (instruction : Instruction) : FirstWith script.IsDefective sequence instruction ↔
      ∃ place, FirstWith (fun place : Instruction × Nat => script.IsDefective place.1)
        sequence.zipIdx place ∧ place.1 = instruction := by
    rw [← FirstWith.map_iff, List.zipIdx_map_fst]
  simp only [mapM_eq_error_iff, hfails, hfirst]
  simp only [links_eq_error_iff]
  constructor
  · rintro ⟨place, hplace, hdefect⟩
    exact ⟨place.1, ⟨place, hplace, rfl⟩, hdefect⟩
  · rintro ⟨_, ⟨place, hplace, rfl⟩, hdefect⟩
    exact ⟨place, hplace, hdefect⟩

end CompiledScript

namespace FlowGraph

variable {script : CompiledScript} {contracts : Contracts} {error : FlowError}

/-- A graph cannot be built exactly for the error of the first defective instruction. -/
private theorem build_eq_error_iff :
    build script contracts = .error error ↔
      ∃ instruction, FirstWith script.IsDefective script.instructions instruction ∧
        ∃ cause, script.Defect instruction cause ∧ error = .ofInstruction instruction cause := by
  simp only [← CompiledScript.firstWith_sequence_iff]
  exact andThen_pure_eq_error_iff.trans CompiledScript.mapM_links_eq_error_iff

/-- A graph cannot be built exactly if an instruction is defective, and the error is that of the
first one, at its position. If all that instructions name is there, the graph is built, whatever
else the blocks and tables hold. A cache that is asked in vain stays as it is. -/
theorem build_fails_exactly (script : CompiledScript) (contracts : Contracts) :
    ((∃ error, build script contracts = .error error) ↔
      ∃ instruction ∈ script.instructions, script.IsDefective instruction) ∧
    (∀ error, build script contracts = .error error ↔
      ∃ instruction cause, FirstWith script.IsDefective script.instructions instruction ∧
        script.Defect instruction cause ∧ error = ⟨cause, instruction.span.getD .unknown⟩) ∧
    ((∀ instruction ∈ script.instructions, script.Resolves instruction) →
      ∃ graph, build script contracts = .ok graph) ∧
    (∀ (cache : FlowCache) (error : FlowError),
      (cache.findOrBuild script contracts).1 = .error error →
        build script contracts = .error error ∧
          (cache.findOrBuild script contracts).2 = cache) := by
  have hfails : (∃ error, build script contracts = .error error) ↔
      ∃ instruction ∈ script.instructions, script.IsDefective instruction := by
    simp only [build_eq_error_iff]
    constructor
    · rintro ⟨_, instruction, hfirst, -⟩
      exact ⟨instruction, hfirst.mem_and_holds⟩
    · rintro ⟨instruction, hmem, hdefective⟩
      obtain ⟨first, hfirst⟩ := FirstWith.exists_of_mem hmem hdefective
      obtain ⟨cause, hdefect⟩ := hfirst.mem_and_holds.2
      exact ⟨_, first, hfirst, cause, hdefect, rfl⟩
  refine ⟨hfails, fun error => ?_, fun hresolves => ?_, fun cache error hasked => ?_⟩
  · simp only [build_eq_error_iff, exists_and_left]
    rfl
  · cases hbuild : build script contracts with
    | ok graph => exact ⟨graph, rfl⟩
    | error error =>
      obtain ⟨instruction, hmem, hdefective⟩ := hfails.mp ⟨error, hbuild⟩
      exact absurd hdefective (hresolves instruction hmem).not_isDefective
  · unfold FlowCache.findOrBuild at hasked ⊢
    cases hfound : cache.find? script.id with
    | some graph =>
      rw [hfound] at hasked
      cases hasked
    | none =>
      cases hbuild : build script contracts with
      | ok graph =>
        simp only [hfound, hbuild] at hasked
        cases hasked
      | error other =>
        simp only [hfound, hbuild] at hasked
        exact ⟨hasked, rfl⟩

/-- A script that switches by given cases after a line marker. The label of its branch leads past
the end and occurs twice, and a case without keys leads nowhere. -/
private def menuScript (cases : List TableCase) : CompiledScript where
  symbol := ⟨.proc, "menu", [], []⟩
  blocks := [
    ⟨⟨"entry"⟩, [⟨.lineNumber, .line 3, some ⟨3, 1⟩⟩, .pushInt 1,
      ⟨.switch, .table 0, some ⟨3, 1⟩⟩, .branchTo .branch ⟨"end"⟩]⟩,
    ⟨⟨"end"⟩, [⟨.leave, .none, none⟩]⟩, ⟨⟨"end"⟩, []⟩]
  tables := [⟨0, ⟨[], ⟨"nowhere"⟩⟩ :: cases⟩, ⟨0, []⟩]

/-- Cases of which the second and the third lead astray. -/
private def strayCases : List TableCase :=
  [⟨[.int 1], ⟨"end"⟩⟩, ⟨[.int 2], ⟨"lost"⟩⟩, ⟨[.int 3], ⟨"gone"⟩⟩]

theorem build_fails_exactly_menuScript :
    build (menuScript strayCases) {} = .error ⟨.unknownLabel ⟨"lost"⟩, ⟨3, 1⟩⟩ ∧
    ∃ graph, build (menuScript (strayCases.take 1)) {} = .ok graph := by
  have hplain (cases : List TableCase) {instruction : Instruction}
      (hbranch : instruction.opcode.isBranch = false) (hswitch : instruction.opcode ≠ .switch) :
      (menuScript cases).Resolves instruction :=
    ⟨fun h => absurd (hbranch.symm.trans h) Bool.false_ne_true, fun h => absurd h hswitch⟩
  constructor
  · have hcase : FirstWith (menuScript strayCases).LeadsAstray
        (⟨[], ⟨"nowhere"⟩⟩ :: strayCases) ⟨[.int 2], ⟨"lost"⟩⟩ :=
      .later (by simp [CompiledScript.LeadsAstray])
        (.later (by simp [CompiledScript.LeadsAstray, menuScript])
          (.here (by simp [CompiledScript.LeadsAstray, menuScript])))
    have htable : FirstWith (fun table => table.id = 0) (menuScript strayCases).tables
        ⟨0, ⟨[], ⟨"nowhere"⟩⟩ :: strayCases⟩ := .here rfl
    have hdefect : (menuScript strayCases).Defect ⟨.switch, .table 0, some ⟨3, 1⟩⟩
        (.unknownLabel ⟨"lost"⟩) := .unknownCase rfl rfl htable hcase
    refine ((build_fails_exactly _ _).2.1 _).mpr ⟨_, _, ?_, hdefect, rfl⟩
    exact .later (hplain _ rfl (by decide)).not_isDefective
      (.later (hplain _ rfl (by decide)).not_isDefective (.here ⟨_, hdefect⟩))
  · refine (build_fails_exactly _ _).2.2.1 fun instruction hmem => ?_
    simp only [CompiledScript.instructions, menuScript, List.flatMap_cons, List.flatMap_nil,
      List.append_nil, List.cons_append, List.nil_append, List.mem_cons, List.not_mem_nil,
      or_false] at hmem
    rcases hmem with rfl | rfl | rfl | rfl | rfl
    · exact hplain _ rfl (by decide)
    · exact hplain _ rfl (by decide)
    · exact ⟨nofun, fun _ => ⟨0, _, rfl, rfl, by simp [menuScript, strayCases]⟩⟩
    · exact ⟨fun _ => ⟨⟨"end"⟩, by simp [menuScript], rfl⟩, nofun⟩
    · exact hplain _ rfl (by decide)

end FlowGraph

end ScriptBackend

import Mathlib.Data.List.Forall2
import ScriptBackend.Flow.Build

/-!
# Links of instructions

A flow graph is built exactly when every real instruction has links. An instruction has links when
its label is borne by a block, or its switch table is known and all labels of the table are borne by
blocks. Other instructions always have links.
-/

namespace ScriptBackend

/-- Two computations in a row give a result exactly when the first gives one and the second gives
the result for it. -/
theorem andThen_eq_ok_iff {α β ε : Type} {first : Except ε α} {next : α → Except ε β} {y : β} :
    first >>= next = .ok y ↔ ∃ x, first = .ok x ∧ next x = .ok y := by
  cases first with
  | error error => simp [bind, Except.bind]
  | ok x => simp [bind, Except.bind]

/-- Results of a list are given exactly when each element gives its own. -/
theorem mapM_eq_ok_iff {α β ε : Type} {f : α → Except ε β} {xs : List α} {ys : List β} :
    xs.mapM f = .ok ys ↔ List.Forall₂ (fun x y => f x = .ok y) xs ys := by
  induction xs generalizing ys with
  | nil => simp [pure, Except.pure, eq_comm]
  | cons x xs ih =>
    rw [List.mapM_cons, List.forall₂_cons_left_iff]
    cases hx : f x with
    | error error => simp [bind, Except.bind]
    | ok y =>
      cases hxs : xs.mapM f with
      | error error =>
        simp only [bind, Except.bind, reduceCtorEq, false_iff]
        rintro ⟨_, rest, -, hrest, -⟩
        rw [← ih, hxs] at hrest
        cases hrest
      | ok rest =>
        simp [bind, Except.bind, pure, Except.pure, ← ih, hxs, eq_comm]

/-- If every element of a list gives a result, the list does. -/
theorem exists_mapM_eq_ok {α β ε : Type} {f : α → Except ε β} {xs : List α}
    (h : ∀ x ∈ xs, ∃ y, f x = .ok y) : ∃ ys, xs.mapM f = .ok ys := by
  induction xs with
  | nil => exact ⟨[], rfl⟩
  | cons x xs ih =>
    rw [List.forall_mem_cons] at h
    obtain ⟨y, hy⟩ := h.1
    obtain ⟨ys, hys⟩ := ih h.2
    exact ⟨y :: ys, mapM_eq_ok_iff.mpr (.cons hy (mapM_eq_ok_iff.mp hys))⟩

namespace CompiledScript

variable {script : CompiledScript}

/-- A real instruction is an instruction. -/
theorem mem_instructions_of_mem_sequence {place : Location × Instruction}
    (h : place ∈ script.sequence) : place.2 ∈ script.instructions := by
  obtain ⟨⟨block, position⟩, hblock, hplace⟩ := List.mem_flatMap.mp h
  obtain ⟨⟨instruction, index⟩, hinstruction, rfl⟩ := List.mem_map.mp hplace
  exact List.mem_flatMap.mpr ⟨block, List.fst_mem_of_mem_zipIdx hblock,
    List.fst_mem_of_mem_zipIdx (List.mem_filter.mp hinstruction).1⟩

/-- A label that a block bears leads somewhere. -/
theorem exists_resolve_eq_ok {label : Label} (h : label ∈ script.blocks.map Block.label)
    (instruction : Instruction) : ∃ target, script.resolve instruction label = .ok target := by
  unfold resolve
  cases hindex : script.blockIndex? label with
  | some index => exact ⟨script.blockStart? index, rfl⟩
  | none =>
    obtain ⟨block, hblock, hlabel⟩ := List.mem_map.mp h
    exact absurd hlabel (lastIndexOf?_eq_none_iff.mp hindex block hblock)

/-- A branch to a label that a block bears has links. -/
theorem exists_branchLinks_eq_ok {instruction : Instruction} {label : Label}
    (hlabel : instruction.label? = some label) (hbound : label ∈ script.blocks.map Block.label)
    (outcome : Option SuccessOutcome) :
    ∃ links, script.branchLinks instruction outcome = .ok links := by
  obtain ⟨target, htarget⟩ := exists_resolve_eq_ok hbound instruction
  exact ⟨_, by rw [branchLinks, hlabel]; simp only [htarget]; rfl⟩

/-- A switch by a known table all of whose labels blocks bear has links. -/
theorem exists_switchLinks_eq_ok {instruction : Instruction} {id : Nat} {table : SwitchTable}
    (hid : instruction.table? = some id) (htable : script.table? id = some table)
    (hbound : ∀ entry ∈ table.cases, entry.label ∈ script.blocks.map Block.label) :
    ∃ links, script.switchLinks instruction = .ok links := by
  have hresolve : ∀ entry ∈ table.cases.filter (fun entry => !entry.keys.isEmpty), ∃ target,
      script.resolve instruction entry.label = .ok target := fun entry hentry =>
    exists_resolve_eq_ok (hbound entry (List.mem_filter.mp hentry).1) instruction
  obtain ⟨targets, htargets⟩ := exists_mapM_eq_ok hresolve
  exact ⟨_, by rw [switchLinks, hid]; simp only [htable, htargets]; rfl⟩

/-- A script has a flow graph if all its references lead somewhere. -/
theorem exists_build_eq_ok
    (hbranches : ∀ instruction ∈ script.instructions, instruction.opcode.isBranch = true →
      ∃ label ∈ script.blocks.map Block.label, instruction.label? = some label)
    (hswitches : ∀ instruction ∈ script.instructions, instruction.opcode = .switch →
      ∃ id table, instruction.table? = some id ∧ script.table? id = some table ∧
        ∀ entry ∈ table.cases, entry.label ∈ script.blocks.map Block.label)
    (contracts : Contracts) : ∃ graph, FlowGraph.build script contracts = .ok graph := by
  have hlinks : ∀ place ∈ (script.sequence.map Prod.snd).zipIdx, ∃ links,
      script.links contracts (script.sequence.map Prod.snd) place.2 place.1 = .ok links := by
    rintro ⟨instruction, position⟩ hmem
    obtain ⟨place, hplace, rfl⟩ := List.mem_map.mp (List.fst_mem_of_mem_zipIdx hmem)
    have hinstruction := mem_instructions_of_mem_sequence hplace
    unfold links
    split
    · next hbranch =>
      obtain ⟨label, hbound, hlabel⟩ := hbranches _ hinstruction hbranch
      obtain ⟨jumps, hjumps⟩ := exists_branchLinks_eq_ok hlabel hbound
        (successOutcomeAt? contracts (script.sequence.map Prod.snd) position)
      exact ⟨_, by simp only [hjumps]; rfl⟩
    · split
      · next hswitch =>
        obtain ⟨id, table, hid, htable, hbound⟩ := hswitches _ hinstruction hswitch
        obtain ⟨jumps, hjumps⟩ := exists_switchLinks_eq_ok hid htable hbound
        exact ⟨_, by simp only [hjumps]; rfl⟩
      · exact ⟨_, rfl⟩
  obtain ⟨links, hlinks⟩ := exists_mapM_eq_ok hlinks
  exact ⟨_, by unfold FlowGraph.build; simp only [hlinks]; rfl⟩

end CompiledScript

end ScriptBackend

import ScriptBackend.Checker.Basic
import ScriptBackend.Proofs.Flow.Links
import ScriptBackend.Proofs.Flow.Sequence

/-!
# Edges of flow graphs

A flow graph has exactly the edges that the flat program has steps: from the entry to the first real
instruction, from an instruction that is not terminal to the next one, from a branch to the place
where its label lands, and from a switch to the places where the labels of its cases with keys land.
An outcome on which pointers become valid is a node of its own with one edge in and one edge out;
with these nodes contracted the edges are the steps, each as often as it occurs.
-/

namespace ScriptBackend

/-- A list that agrees element by element with the values of a function holds these values. -/
private theorem eq_map_of_forall₂ {α β : Type} {f : α → β} {xs : List α} {ys : List β}
    (h : List.Forall₂ (fun x y => y = f x) xs ys) : ys = xs.map f := by
  induction h with
  | nil => rfl
  | cons hy _ ih => rw [hy, ih, List.map_cons]

namespace CompiledScript

/-- Where a label lands: the first real instruction in the block that it leads to or in a later
one. -/
def landing? (script : CompiledScript) (label : Label) : Option Nat :=
  (script.blockIndex? label).bind fun block =>
    script.sequence.findIdx? fun place => decide (block ≤ place.1.block)

/-- The cases with keys of the switch table that an instruction chooses by. -/
def keyedCases (script : CompiledScript) (instruction : Instruction) : List TableCase :=
  (((instruction.table?.bind script.table?).map SwitchTable.cases).getD []).filter fun entry =>
    !entry.keys.isEmpty

/-- Where control may go from the real instruction at a position, and why. -/
def successors (script : CompiledScript) (position : Nat) (instruction : Instruction) :
    List (Nat × FlowEdge) :=
  let next := if !instruction.opcode.isTerminal && position + 1 < script.sequence.length then
    [position + 1] else []
  let branch := if instruction.opcode.isBranch then instruction.label?.bind script.landing?
    else none
  let choices := if instruction.opcode = .switch then
    (script.keyedCases instruction).filterMap fun entry => script.landing? entry.label else []
  next.map (·, .fallthrough) ++ (branch.toList.map (·, .branch) ++ choices.map (·, .switchCase))

/-- The steps of the flat program, with the entry as node zero and the real instructions as the
nodes after it. -/
def steps (script : CompiledScript) : List (Edge FlowEdge) :=
  (if script.sequence.isEmpty then [] else [⟨0, 1, .entry⟩]) ++
    script.sequence.zipIdx.flatMap fun (place, position) =>
      (script.successors position place.2).map fun (target, kind) =>
        ⟨position + 1, target + 1, kind⟩

variable {script : CompiledScript}

/-- A label that resolves lands where it resolves to. -/
theorem eq_landing?_of_resolve {instruction : Instruction} {label : Label} {target : Option Nat}
    (h : script.resolve instruction label = .ok target) : target = script.landing? label := by
  unfold resolve at h
  unfold landing?
  cases hindex : script.blockIndex? label with
  | none =>
    rw [hindex] at h
    cases h
  | some block =>
    rw [hindex] at h
    cases h
    obtain ⟨found, hfound, -⟩ := label_of_lastIndexOf? hindex
    have hlt := (List.getElem?_eq_some_iff.mp hfound).1
    exact blockStart?_eq_findIdx? (Nat.le_of_lt hlt)

/-- Where a label lands is a position of the sequence. -/
theorem landing?_lt {label : Label} {target : Nat} (h : script.landing? label = some target) :
    target < script.sequence.length := by
  obtain ⟨block, -, hfind⟩ := Option.bind_eq_some_iff.mp h
  exact (List.findIdx?_eq_some_iff_getElem.mp hfind).1

/-- A label lands on the first real instruction at or after the start of the last block that bears
it. -/
theorem landing?_eq_some_iff {label : Label} {target : Nat} :
    script.landing? label = some target ↔
      ∃ block, (script.blocks[block]?).map Block.label = some label ∧
        (∀ later, block < later → (script.blocks[later]?).map Block.label ≠ some label) ∧
        (∃ place, script.sequence[target]? = some place ∧ block ≤ place.1.block) ∧
        ∀ earlier < target, ∀ place, script.sequence[earlier]? = some place →
          place.1.block < block := by
  rw [landing?, Option.bind_eq_some_iff]
  refine exists_congr fun block => ?_
  rw [blockIndex?_eq_some_iff, and_assoc, List.findIdx?_eq_some_iff_getElem]
  refine and_congr_right fun _ => and_congr_right fun _ => ?_
  constructor
  · rintro ⟨hlt, hplace, hearlier⟩
    refine ⟨⟨_, List.getElem?_eq_getElem hlt, of_decide_eq_true hplace⟩, ?_⟩
    intro earlier hless place hfound
    obtain ⟨hbound, rfl⟩ := List.getElem?_eq_some_iff.mp hfound
    have hnot := hearlier earlier hless
    rw [decide_eq_true_eq] at hnot
    omega
  · rintro ⟨⟨place, hfound, hplace⟩, hearlier⟩
    obtain ⟨hlt, rfl⟩ := List.getElem?_eq_some_iff.mp hfound
    refine ⟨hlt, decide_eq_true hplace, fun earlier hless => ?_⟩
    have hbefore := hearlier earlier hless _ (List.getElem?_eq_getElem (Nat.lt_trans hless hlt))
    rw [decide_eq_true_eq]
    omega

/-- The links of a branch lead to where its label lands. -/
theorem map_target_branchLinks {instruction : Instruction} {outcome : Option SuccessOutcome}
    {links : List Link} (h : script.branchLinks instruction outcome = .ok links) :
    links.map (fun link => (link.target, link.kind)) =
      (instruction.label?.bind script.landing?).toList.map (·, .branch) := by
  unfold branchLinks at h
  split at h
  · cases h
  · next label hlabel =>
    obtain ⟨target, htarget, hlinks⟩ := andThen_eq_ok_iff.mp h
    cases hlinks
    rw [hlabel, Option.bind_some, ← eq_landing?_of_resolve htarget, List.map_map]
    rfl

/-- The links of a switch lead to where the labels of its cases with keys land. -/
theorem map_target_switchLinks {instruction : Instruction} {links : List Link}
    (h : script.switchLinks instruction = .ok links) :
    links.map (fun link => (link.target, link.kind)) =
      ((script.keyedCases instruction).filterMap fun entry => script.landing? entry.label).map
        (·, .switchCase) := by
  unfold switchLinks at h
  split at h
  · cases h
  · next id hid =>
    split at h
    · cases h
    · next table htable =>
      obtain ⟨targets, htargets, hlinks⟩ := andThen_eq_ok_iff.mp h
      cases hlinks
      have hlandings : targets = (script.keyedCases instruction).map fun entry =>
          script.landing? entry.label := by
        unfold keyedCases
        rw [hid, Option.bind_some, htable, Option.map_some, Option.getD_some]
        exact eq_map_of_forall₂ ((mapM_eq_ok_iff.mp htargets).imp fun _ _ =>
          eq_landing?_of_resolve)
      rw [hlandings, List.filterMap_map, List.map_filterMap, List.map_filterMap]
      refine List.filterMap_congr fun entry _ => ?_
      rw [Function.comp_apply, Option.map_map]
      rfl

/-- The links of an instruction lead to its successors. -/
theorem map_target_links {contracts : Contracts} {position : Nat} {instruction : Instruction}
    {links : List Link} (h : script.links contracts (script.sequence.map Prod.snd) position
      instruction = .ok links) :
    links.map (fun link => (link.target, link.kind)) = script.successors position instruction := by
  have hnext (outcome : Option SuccessOutcome) :
      (nextLinks (script.sequence.map Prod.snd) position instruction outcome).map
        (fun link => (link.target, link.kind)) =
      (if !instruction.opcode.isTerminal && position + 1 < script.sequence.length then
        [position + 1] else []).map (·, .fallthrough) := by
    unfold nextLinks
    rw [List.length_map]
    split <;> rfl
  unfold CompiledScript.links at h
  unfold successors
  dsimp only
  by_cases hbranch : instruction.opcode.isBranch = true
  · have hswitch : instruction.opcode ≠ .switch := by
      intro hswitch
      rw [hswitch] at hbranch
      cases hbranch
    simp only [if_pos hbranch] at h
    obtain ⟨jumps, hjumps, hlinks⟩ := andThen_eq_ok_iff.mp h
    cases hlinks
    rw [List.map_append, hnext, map_target_branchLinks hjumps, if_pos hbranch, if_neg hswitch,
      List.map_nil, List.append_nil]
  · simp only [if_neg hbranch] at h
    rw [if_neg hbranch, Option.toList_none, List.map_nil, List.nil_append]
    by_cases hswitch : instruction.opcode = .switch
    · simp only [if_pos hswitch] at h
      obtain ⟨jumps, hjumps, hlinks⟩ := andThen_eq_ok_iff.mp h
      cases hlinks
      rw [List.map_append, hnext, map_target_switchLinks hjumps, if_pos hswitch]
    · simp only [if_neg hswitch] at h
      cases h
      rw [List.map_append, hnext, if_neg hswitch, List.map_nil, List.map_nil]

/-- Control goes to instructions of the sequence only. -/
theorem lt_of_mem_successors {position target : Nat} {instruction : Instruction} {kind : FlowEdge}
    (h : (target, kind) ∈ script.successors position instruction) :
    target < script.sequence.length := by
  unfold successors at h
  simp only [List.mem_append, List.mem_map, Prod.mk.injEq] at h
  obtain ⟨_, hnext, rfl, -⟩ | ⟨_, hbranch, rfl, -⟩ | ⟨_, hchoice, rfl, -⟩ := h
  · split at hnext
    · next hguard =>
      rw [Bool.and_eq_true, decide_eq_true_eq] at hguard
      rw [List.mem_singleton.mp hnext]
      exact hguard.2
    · cases hnext
  · split at hbranch
    · obtain ⟨label, -, hlanding⟩ := Option.bind_eq_some_iff.mp (Option.mem_toList.mp hbranch)
      exact landing?_lt hlanding
    · cases hbranch
  · split at hchoice
    · obtain ⟨entry, -, hlanding⟩ := List.mem_filterMap.mp hchoice
      exact landing?_lt hlanding
    · cases hchoice

end CompiledScript

end ScriptBackend

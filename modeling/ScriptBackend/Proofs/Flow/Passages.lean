import ScriptBackend.Proofs.Flow.Contraction

/-!
# Passages of flow graphs

The links of a script are: to the next instruction, to where a label of a branch lands, and to where
the labels of a switch land. A link on which no pointers become valid is one edge of the flow graph;
any other is a passage, two edges through a node of its own. The edges of a flow graph are these and
the edge that control starts by. Inside a block an instruction after one that simply goes on has no
other predecessor.
-/

namespace ScriptBackend

/-- Whether control only goes on to the next instruction. -/
def Opcode.GoesOn (opcode : Opcode) : Prop :=
  opcode.isTerminal = false ∧ opcode.isBranch = false ∧ opcode ≠ .switch

namespace CompiledScript

/-- The successful outcome of the comparison at a position of a script. -/
def outcomeAt? (script : CompiledScript) (contracts : Contracts) (position : Nat) :
    Option SuccessOutcome :=
  successOutcomeAt? contracts (script.sequence.map Prod.snd) position

/-- Whether control may take a link from a position of a script. -/
inductive IsLink (script : CompiledScript) (contracts : Contracts) (position : Nat) : Link → Prop
    where
  /-- To the next instruction. -/
  | next {place : Location × Instruction} (hplace : script.sequence[position]? = some place)
      (hgoes : place.2.opcode.isTerminal = false) (hlt : position + 1 < script.sequence.length) :
      IsLink script contracts position ⟨position + 1, .fallthrough,
        ((script.outcomeAt? contracts position).filter fun success => !success.onBranch).map
          SuccessOutcome.pointers⟩
  /-- To where the label of a branch lands. -/
  | branch {place : Location × Instruction} {label : Label} {target : Nat}
      (hplace : script.sequence[position]? = some place)
      (hbranch : place.2.opcode.isBranch = true) (hlabel : place.2.label? = some label)
      (hlanding : script.landing? label = some target) :
      IsLink script contracts position ⟨target, .branch,
        ((script.outcomeAt? contracts position).filter SuccessOutcome.onBranch).map
          SuccessOutcome.pointers⟩
  /-- To where a case of a switch lands. -/
  | choice {place : Location × Instruction} {entry : TableCase} {target : Nat}
      (hplace : script.sequence[position]? = some place) (hswitch : place.2.opcode = .switch)
      (hentry : entry ∈ script.keyedCases place.2)
      (hlanding : script.landing? entry.label = some target) :
      IsLink script contracts position ⟨target, .switchCase, none⟩

variable {script : CompiledScript} {contracts : Contracts}

/-- A comparison has a successful outcome when it stands after a command and a push and the three
have one. -/
theorem outcomeAt?_eq_some_iff {position : Nat} {success : SuccessOutcome} :
    script.outcomeAt? contracts position = some success ↔
      ∃ first command push branch, position = first + 2 ∧
        script.sequence[first]? = some command ∧ script.sequence[first + 1]? = some push ∧
        script.sequence[first + 2]? = some branch ∧
        successOutcome? contracts command.2 push.2 branch.2 = some success := by
  unfold outcomeAt?
  constructor
  · intro h
    unfold successOutcomeAt? at h
    split at h
    · cases h
    · cases h
    · next first =>
      simp only [List.getElem?_map] at h
      split at h
      · next hfirst hsecond hthird =>
        obtain ⟨command, hcommand, rfl⟩ := Option.map_eq_some_iff.mp hfirst
        obtain ⟨push, hpush, rfl⟩ := Option.map_eq_some_iff.mp hsecond
        obtain ⟨branch, hbranch, rfl⟩ := Option.map_eq_some_iff.mp hthird
        exact ⟨first, command, push, branch, rfl, hcommand, hpush, hbranch, h⟩
      · cases h
  · rintro ⟨first, command, push, branch, rfl, hcommand, hpush, hbranch, h⟩
    unfold successOutcomeAt?
    simp only [List.getElem?_map, hcommand, hpush, hbranch, Option.map_some]
    exact h

/-- Only comparisons of integers for equality have a successful outcome. -/
theorem opcode_of_successOutcome? {command push branch : Instruction} {success : SuccessOutcome}
    (h : successOutcome? contracts command push branch = some success) :
    branch.opcode = .branchEquals ∨ branch.opcode = .branchNot := by
  unfold successOutcome? branchesOnSuccess? at h
  split at h
  · next hbranches =>
    split at hbranches
    · next hopcode => exact .inl hopcode
    · next hopcode => exact .inr hopcode
    · cases hbranches
  · cases h

/-- What has a successful outcome compares integers for equality. -/
theorem opcode_of_outcomeAt? {position : Nat} {success : SuccessOutcome}
    (h : script.outcomeAt? contracts position = some success) :
    ∃ place, script.sequence[position]? = some place ∧
      (place.2.opcode = .branchEquals ∨ place.2.opcode = .branchNot) := by
  obtain ⟨first, command, push, branch, rfl, -, -, hbranch, hthree⟩ :=
    outcomeAt?_eq_some_iff.mp h
  exact ⟨branch, hbranch, opcode_of_successOutcome? hthree⟩

/-- An instruction that is no branch has no successful outcome. -/
theorem outcomeAt?_eq_none {position : Nat} {place : Location × Instruction}
    (hplace : script.sequence[position]? = some place)
    (hbranch : place.2.opcode.isBranch = false) : script.outcomeAt? contracts position = none := by
  rw [Option.eq_none_iff_forall_ne_some]
  intro success hsuccess
  obtain ⟨found, hfound, hopcode⟩ := opcode_of_outcomeAt? hsuccess
  cases hplace.symm.trans hfound
  rcases hopcode with hopcode | hopcode
  · rw [hopcode] at hbranch
    cases hbranch
  · rw [hopcode] at hbranch
    cases hbranch

/-- A label lands on the first instruction of a block only. -/
theorem landing?_ne_of_sameBlock {position : Nat} {before place : Location × Instruction}
    (hbefore : script.sequence[position]? = some before)
    (hplace : script.sequence[position + 1]? = some place)
    (hblock : place.1.block = before.1.block) (label : Label) :
    script.landing? label ≠ some (position + 1) := by
  intro hlanding
  obtain ⟨block, -, -, ⟨found, hfound, hle⟩, hearlier⟩ := landing?_eq_some_iff.mp hlanding
  cases hplace.symm.trans hfound
  have hlt := hearlier position (Nat.lt_succ_self _) before hbefore
  omega

/-- The links of a branch that were found are its links. -/
private theorem mem_branchLinks_iff {instruction : Instruction} {outcome : Option SuccessOutcome}
    {links : List Link} (h : script.branchLinks instruction outcome = .ok links) {link : Link} :
    link ∈ links ↔ ∃ label target, instruction.label? = some label ∧
      script.landing? label = some target ∧ link = ⟨target, .branch,
        (outcome.filter SuccessOutcome.onBranch).map SuccessOutcome.pointers⟩ := by
  unfold branchLinks at h
  split at h
  · cases h
  · next label hlabel =>
    obtain ⟨target, htarget, hlinks⟩ := andThen_eq_ok_iff.mp h
    cases hlinks
    rw [eq_landing?_of_resolve htarget, hlabel]
    simp [eq_comm]

/-- The links of a switch that were found are its links. -/
private theorem mem_switchLinks_iff {instruction : Instruction} {links : List Link}
    (h : script.switchLinks instruction = .ok links) {link : Link} :
    link ∈ links ↔ ∃ entry ∈ script.keyedCases instruction, ∃ target,
      script.landing? entry.label = some target ∧ link = ⟨target, .switchCase, none⟩ := by
  have htargets := map_target_switchLinks h
  have hvia : ∀ found ∈ links, found.via = none := by
    unfold switchLinks at h
    split at h
    · cases h
    · split at h
      · cases h
      · obtain ⟨targets, -, hlinks⟩ := andThen_eq_ok_iff.mp h
        cases hlinks
        intro found hfound
        obtain ⟨target, -, htarget⟩ := List.mem_filterMap.mp hfound
        obtain ⟨position, -, rfl⟩ := Option.map_eq_some_iff.mp htarget
        rfl
  constructor
  · intro hlink
    have hmem : (link.target, link.kind) ∈ links.map fun link => (link.target, link.kind) :=
      List.mem_map_of_mem hlink
    rw [htargets] at hmem
    obtain ⟨target, htarget, heq⟩ := List.mem_map.mp hmem
    obtain ⟨entry, hentry, hlanding⟩ := List.mem_filterMap.mp htarget
    have hnone := hvia link hlink
    obtain ⟨found, kind, via⟩ := link
    cases heq
    cases hnone
    exact ⟨entry, hentry, _, hlanding, rfl⟩
  · rintro ⟨entry, hentry, target, hlanding, rfl⟩
    have hmem : (target, FlowEdge.switchCase) ∈
        links.map fun link => (link.target, link.kind) := by
      rw [htargets]
      exact List.mem_map_of_mem (List.mem_filterMap.mpr ⟨entry, hentry, hlanding⟩)
    obtain ⟨link, hlink, heq⟩ := List.mem_map.mp hmem
    have hnone := hvia link hlink
    obtain ⟨found, kind, via⟩ := link
    cases heq
    cases hnone
    exact hlink

/-- The link to the next instruction that was found is that link. -/
private theorem mem_nextLinks_iff {position : Nat} {instruction : Instruction}
    {outcome : Option SuccessOutcome} {link : Link} :
    link ∈ nextLinks (script.sequence.map Prod.snd) position instruction outcome ↔
      instruction.opcode.isTerminal = false ∧ position + 1 < script.sequence.length ∧
        link = ⟨position + 1, .fallthrough, (outcome.filter fun success => !success.onBranch).map
          SuccessOutcome.pointers⟩ := by
  unfold nextLinks
  rw [List.length_map]
  split
  · next hguard =>
    rw [Bool.and_eq_true, Bool.not_eq_true', decide_eq_true_eq] at hguard
    simp [hguard]
  · next hguard =>
    rw [Bool.and_eq_true, Bool.not_eq_true', decide_eq_true_eq] at hguard
    simp only [List.not_mem_nil, false_iff]
    rintro ⟨hgoes, hlt, -⟩
    exact hguard ⟨hgoes, hlt⟩

/-- The links that were found for an instruction are the link to the next one and its jumps. -/
private theorem exists_jumps {position : Nat} {instruction : Instruction} {links : List Link}
    (h : script.links contracts (script.sequence.map Prod.snd) position instruction = .ok links) :
    ∃ jumps, links = nextLinks (script.sequence.map Prod.snd) position instruction
        (script.outcomeAt? contracts position) ++ jumps ∧
      (instruction.opcode.isBranch = true →
        script.branchLinks instruction (script.outcomeAt? contracts position) = .ok jumps) ∧
      (instruction.opcode = .switch → script.switchLinks instruction = .ok jumps) ∧
      (instruction.opcode.isBranch = false → instruction.opcode ≠ .switch → jumps = []) := by
  unfold CompiledScript.links at h
  by_cases hbranch : instruction.opcode.isBranch = true
  · have hswitch : instruction.opcode ≠ .switch := by
      intro hswitch
      rw [hswitch] at hbranch
      cases hbranch
    simp only [if_pos hbranch] at h
    obtain ⟨jumps, hjumps, hlinks⟩ := andThen_eq_ok_iff.mp h
    cases hlinks
    exact ⟨jumps, rfl, fun _ => hjumps, fun hswitch' => absurd hswitch' hswitch,
      fun hplain => absurd hbranch (by simp [hplain])⟩
  · simp only [if_neg hbranch] at h
    by_cases hswitch : instruction.opcode = .switch
    · simp only [if_pos hswitch] at h
      obtain ⟨jumps, hjumps, hlinks⟩ := andThen_eq_ok_iff.mp h
      cases hlinks
      exact ⟨jumps, rfl, fun hbranch' => absurd hbranch' hbranch, fun _ => hjumps,
        fun _ hplain => absurd hswitch hplain⟩
    · simp only [if_neg hswitch] at h
      cases h
      exact ⟨[], rfl, fun hbranch' => absurd hbranch' hbranch,
        fun hswitch' => absurd hswitch' hswitch, fun _ _ => rfl⟩

/-- The links that were found for an instruction are its links. -/
theorem mem_links_iff {position : Nat} {place : Location × Instruction} {links : List Link}
    (hplace : script.sequence[position]? = some place)
    (h : script.links contracts (script.sequence.map Prod.snd) position place.2 = .ok links)
    {link : Link} : link ∈ links ↔ script.IsLink contracts position link := by
  obtain ⟨jumps, rfl, hbranches, hswitches, hplain⟩ := exists_jumps h
  rw [List.mem_append, mem_nextLinks_iff]
  constructor
  · rintro (⟨hgoes, hlt, rfl⟩ | hmem)
    · exact .next hplace hgoes hlt
    · by_cases hbranch : place.2.opcode.isBranch = true
      · obtain ⟨label, target, hlabel, hlanding, rfl⟩ :=
          (mem_branchLinks_iff (hbranches hbranch)).mp hmem
        exact .branch hplace hbranch hlabel hlanding
      · by_cases hswitch : place.2.opcode = .switch
        · obtain ⟨entry, hentry, target, hlanding, rfl⟩ :=
            (mem_switchLinks_iff (hswitches hswitch)).mp hmem
          exact .choice hplace hswitch hentry hlanding
        · rw [hplain (by simpa using hbranch) hswitch] at hmem
          exact absurd hmem List.not_mem_nil
  · intro hlink
    cases hlink with
    | next hplace' hgoes hlt =>
      cases hplace.symm.trans hplace'
      exact .inl ⟨hgoes, hlt, rfl⟩
    | branch hplace' hbranch hlabel hlanding =>
      cases hplace.symm.trans hplace'
      exact .inr ((mem_branchLinks_iff (hbranches hbranch)).mpr ⟨_, _, hlabel, hlanding, rfl⟩)
    | choice hplace' hswitch hentry hlanding =>
      cases hplace.symm.trans hplace'
      exact .inr ((mem_switchLinks_iff (hswitches hswitch)).mpr ⟨_, hentry, _, hlanding, rfl⟩)

end CompiledScript

namespace FlowGraph

open CompiledScript

/-- The links of all positions with the positions they leave. -/
private def placedLinks (links : List (List Link)) : List (Nat × Link) :=
  links.zipIdx.flatMap fun (found, position) => found.map fun link => (position, link)

/-- Links of all positions are added one after another. -/
private theorem addLinks_eq_foldl (graph : FlowGraph) (links : List (List Link)) :
    graph.addLinks links =
      (placedLinks links).foldl (fun graph entry => graph.addLink entry.1 entry.2) graph := by
  unfold addLinks placedLinks
  rw [List.foldl_flatMap]
  congr 1
  funext graph entry
  rw [List.foldl_map]

/-- Whether an edge is the edge of a link, or one of the two edges of its passage. -/
inductive Carries (graph : FlowGraph) (position : Nat) (link : Link) : Edge FlowEdge → Prop where
  | direct (hvia : link.via = none) :
      Carries graph position link ⟨position + 1, link.target + 1, link.kind⟩
  | into {pointers : PointerSet} {outcome : Nat} (hvia : link.via = some pointers)
      (hlt : outcome < graph.size) (hnode : graph.node outcome = .validated pointers) :
      Carries graph position link ⟨position + 1, outcome, link.kind⟩
  | out {pointers : PointerSet} {outcome : Nat} (hvia : link.via = some pointers)
      (hlt : outcome < graph.size) (hnode : graph.node outcome = .validated pointers) :
      Carries graph position link ⟨outcome, link.target + 1, .conditional⟩

/-- Whether a link has its edge, or a passage of its own. -/
def HasLink (graph : FlowGraph) (position : Nat) (link : Link) : Prop :=
  match link.via with
  | none => ⟨position + 1, link.target + 1, link.kind⟩ ∈ graph.edges
  | some pointers => ∃ outcome < graph.size, graph.node outcome = .validated pointers ∧
      ⟨position + 1, outcome, link.kind⟩ ∈ graph.edges ∧
      ⟨outcome, link.target + 1, .conditional⟩ ∈ graph.edges

/-- Whether a graph has the nodes of another one at their positions, and its edges. -/
structure Extends (graph larger : FlowGraph) : Prop where
  size_le : graph.size ≤ larger.size
  node_eq : ∀ index < graph.size, larger.node index = graph.node index
  edges_subset : graph.edges ⊆ larger.edges

variable {graph larger : FlowGraph} {position : Nat} {link : Link} {edge : Edge FlowEdge}

theorem Extends.refl (graph : FlowGraph) : graph.Extends graph :=
  ⟨Nat.le_refl _, fun _ _ => rfl, fun _ h => h⟩

theorem Extends.trans {last : FlowGraph} (h : graph.Extends larger) (hlast : larger.Extends last) :
    graph.Extends last where
  size_le := Nat.le_trans h.size_le hlast.size_le
  node_eq index hlt :=
    (hlast.node_eq index (Nat.lt_of_lt_of_le hlt h.size_le)).trans (h.node_eq index hlt)
  edges_subset _ hedge := hlast.edges_subset (h.edges_subset hedge)

/-- What carries a link does so in a larger graph. -/
theorem Carries.mono (h : graph.Carries position link edge) (hlarger : graph.Extends larger) :
    larger.Carries position link edge := by
  cases h with
  | direct hvia => exact .direct hvia
  | into hvia hlt hnode =>
    exact .into hvia (Nat.lt_of_lt_of_le hlt hlarger.size_le)
      ((hlarger.node_eq _ hlt).trans hnode)
  | out hvia hlt hnode =>
    exact .out hvia (Nat.lt_of_lt_of_le hlt hlarger.size_le)
      ((hlarger.node_eq _ hlt).trans hnode)

/-- A larger graph has the links of a smaller one. -/
theorem HasLink.mono (h : graph.HasLink position link) (hlarger : graph.Extends larger) :
    larger.HasLink position link := by
  unfold HasLink at h ⊢
  split at h
  · exact hlarger.edges_subset h
  · obtain ⟨outcome, hlt, hnode, hinto, hout⟩ := h
    exact ⟨outcome, Nat.lt_of_lt_of_le hlt hlarger.size_le,
      (hlarger.node_eq outcome hlt).trans hnode, hlarger.edges_subset hinto,
      hlarger.edges_subset hout⟩

/-- A link extends a graph, and has its edge or its passage there. -/
private theorem extends_addLink (graph : FlowGraph) (position : Nat) (link : Link) :
    graph.Extends (graph.addLink position link) ∧
      (graph.addLink position link).HasLink position link ∧
      ∀ edge ∈ (graph.addLink position link).edges, edge ∈ graph.edges ∨
        (graph.addLink position link).Carries position link edge := by
  cases hvia : link.via with
  | none =>
    have hadd : graph.addLink position link =
        graph.addEdge (position + 1) (link.target + 1) link.kind := by
      rw [addLink, hvia]
      rfl
    rw [hadd]
    refine ⟨⟨Nat.le_refl _, fun _ _ => rfl, List.subset_append_left ..⟩, ?_, fun edge hedge => ?_⟩
    · rw [HasLink, hvia]
      exact List.mem_append_right _ List.mem_cons_self
    · rcases List.mem_append.mp hedge with hold | hnew
      · exact .inl hold
      · rw [List.mem_singleton.mp hnew]
        exact .inr (.direct hvia)
  | some pointers =>
    have hadd : graph.addLink position link = ((graph.addNode (.validated pointers)).addEdge
        (position + 1) graph.size link.kind).addEdge graph.size (link.target + 1)
          .conditional := by
      rw [addLink, hvia]
      rfl
    have hsize : Digraph.size (graph.addLink position link) = graph.size + 1 := by
      rw [hadd]
      exact graph.size_addNode _
    have hnode : (graph.addLink position link).node graph.size = .validated pointers := by
      rw [hadd]
      exact node_addNode_size graph _
    have hlt : graph.size < Digraph.size (graph.addLink position link) := by omega
    have hedges : (graph.addLink position link).edges =
        (graph.edges ++ [⟨position + 1, graph.size, link.kind⟩]) ++
          [⟨graph.size, link.target + 1, .conditional⟩] := by
      rw [hadd]
      rfl
    refine ⟨⟨by omega, fun index hindex => ?_, ?_⟩, ?_, fun edge hedge => ?_⟩
    · rw [hadd]
      exact node_addNode_of_lt hindex _
    · rw [hedges, List.append_assoc]
      exact List.subset_append_left ..
    · rw [HasLink, hvia]
      refine ⟨graph.size, hlt, hnode, ?_, ?_⟩
      · simp [hedges]
      · simp [hedges]
    · rw [hedges] at hedge
      rcases List.mem_append.mp hedge with hedge | hnew
      · rcases List.mem_append.mp hedge with hold | hnew
        · exact .inl hold
        · rw [List.mem_singleton.mp hnew]
          exact .inr (.into hvia hlt hnode)
      · rw [List.mem_singleton.mp hnew]
        exact .inr (.out hvia hlt hnode)

/-- Links that are added one after another extend a graph, have their edges or passages there, and
add no other edges. -/
private theorem extends_foldl_addLink (entries : List (Nat × Link)) (graph : FlowGraph) :
    let larger := entries.foldl (fun graph entry => graph.addLink entry.1 entry.2) graph
    graph.Extends larger ∧ (∀ entry ∈ entries, larger.HasLink entry.1 entry.2) ∧
      ∀ edge ∈ larger.edges, edge ∈ graph.edges ∨
        ∃ entry ∈ entries, larger.Carries entry.1 entry.2 edge := by
  induction entries generalizing graph with
  | nil => exact ⟨.refl graph, fun entry hentry => absurd hentry List.not_mem_nil, fun _ => .inl⟩
  | cons first rest ih =>
    intro larger
    obtain ⟨hfirst, hlink, hcarries⟩ := extends_addLink graph first.1 first.2
    obtain ⟨hrest, hlinks, hedges⟩ := ih (graph.addLink first.1 first.2)
    refine ⟨hfirst.trans hrest, fun entry hentry => ?_, fun edge hedge => ?_⟩
    · rcases List.mem_cons.mp hentry with rfl | hentry
      · exact hlink.mono hrest
      · exact hlinks entry hentry
    · rcases hedges edge hedge with hedge | ⟨entry, hentry, hedge⟩
      · rcases hcarries edge hedge with hold | hnew
        · exact .inl hold
        · exact .inr ⟨first, List.mem_cons_self, hnew.mono hrest⟩
      · exact .inr ⟨entry, List.mem_cons_of_mem _ hentry, hedge⟩

variable {script : CompiledScript} {contracts : Contracts}

/-- The links of all positions that were found are the links of the script. -/
private theorem mem_placedLinks_iff {links : List (List Link)}
    (h : List.Forall₂ (fun place links => script.links contracts (script.sequence.map Prod.snd)
      place.2 place.1 = .ok links) (script.sequence.map Prod.snd).zipIdx links) :
    (position, link) ∈ placedLinks links ↔ script.IsLink contracts position link := by
  obtain ⟨hlength, hlinks⟩ := List.forall₂_iff_get.mp h
  rw [List.length_zipIdx, List.length_map] at hlength
  have hfound (place : Location × Instruction) (hplace : script.sequence[position]? = some place) :
      ∃ found, links[position]? = some found ∧
        script.links contracts (script.sequence.map Prod.snd) position place.2 = .ok found := by
    obtain ⟨hlt, rfl⟩ := List.getElem?_eq_some_iff.mp hplace
    have hlt' : position < links.length := hlength ▸ hlt
    refine ⟨links[position], List.getElem?_eq_getElem hlt', ?_⟩
    have hget := hlinks position (by rw [List.length_zipIdx, List.length_map]; exact hlt) hlt'
    simpa using hget
  have hmem : (position, link) ∈ placedLinks links ↔
      ∃ found, links[position]? = some found ∧ link ∈ found := by
    unfold placedLinks
    constructor
    · intro hmem
      obtain ⟨⟨found, place⟩, hfound, hentry⟩ := List.mem_flatMap.mp hmem
      obtain ⟨other, hother, heq⟩ := List.mem_map.mp hentry
      cases heq
      exact ⟨found, List.mem_zipIdx_iff_getElem?.mp hfound, hother⟩
    · rintro ⟨found, hfound, hlink⟩
      exact List.mem_flatMap.mpr ⟨(found, position), List.mem_zipIdx_iff_getElem?.mpr hfound,
        List.mem_map_of_mem hlink⟩
  rw [hmem]
  constructor
  · rintro ⟨found, hfound', hlink⟩
    have hlt : position < script.sequence.length := by
      rw [hlength]
      exact (List.getElem?_eq_some_iff.mp hfound').1
    obtain ⟨other, hother, hok⟩ := hfound _ (List.getElem?_eq_getElem hlt)
    cases hother.symm.trans hfound'
    exact (mem_links_iff (List.getElem?_eq_getElem hlt) hok).mp hlink
  · intro hlink
    have hplace : ∃ place, script.sequence[position]? = some place := by
      cases hlink with
      | next hplace _ _ => exact ⟨_, hplace⟩
      | branch hplace _ _ _ => exact ⟨_, hplace⟩
      | choice hplace _ _ _ => exact ⟨_, hplace⟩
    obtain ⟨place, hplace⟩ := hplace
    obtain ⟨found, hfound', hok⟩ := hfound place hplace
    exact ⟨found, hfound', (mem_links_iff hplace hok).mpr hlink⟩

/-- A flow graph has the links of its script and the edge that control starts by, and no other
edges. -/
theorem edges_build (h : build script contracts = .ok graph) :
    (∀ position link, script.IsLink contracts position link → graph.HasLink position link) ∧
      (script.sequence ≠ [] → ⟨0, 1, .entry⟩ ∈ graph.edges) ∧
      ∀ edge ∈ graph.edges, edge = ⟨0, 1, .entry⟩ ∧ script.sequence ≠ [] ∨ ∃ position link,
        script.IsLink contracts position link ∧ graph.Carries position link edge := by
  unfold build at h
  obtain ⟨links, hlinks, hgraph⟩ := andThen_eq_ok_iff.mp h
  cases hgraph
  have hforall := mapM_eq_ok_iff.mp hlinks
  obtain ⟨hextends, hhas, hedges⟩ :=
    extends_foldl_addLink (placedLinks links) (ofSequence script.sequence)
  rw [← addLinks_eq_foldl] at hextends hhas hedges
  refine ⟨fun position link hlink => ?_, fun hne => ?_, fun edge hedge => ?_⟩
  · exact hhas (position, link) ((mem_placedLinks_iff hforall).mpr hlink)
  · apply hextends.edges_subset
    rw [ofSequence, if_neg (by simpa using hne)]
    exact List.mem_cons_self
  · rcases hedges edge hedge with hold | ⟨⟨position, link⟩, hentry, hcarries⟩
    · left
      unfold ofSequence at hold
      dsimp only at hold
      split at hold
      · exact absurd hold List.not_mem_nil
      · next hne => exact ⟨List.mem_singleton.mp hold, by simpa using hne⟩
    · exact .inr ⟨position, link, (mem_placedLinks_iff hforall).mp hentry, hcarries⟩

/-- The node of a position is the instruction there. -/
theorem node_position (h : build script contracts = .ok graph) {place : Location × Instruction}
    (hplace : script.sequence[position]? = some place) :
    graph.node (position + 1) = .code place.1 place.2 := by
  obtain ⟨outcomes, hnodes⟩ := exists_nodes_build h
  obtain ⟨hlt, rfl⟩ := List.getElem?_eq_some_iff.mp hplace
  rw [FlowGraph.node, hnodes, List.getD_cons_succ, List.getD_append _ _ _ _ (by simpa using hlt)]
  simp [hlt]

/-- Outcomes are nodes after those of the instructions. -/
theorem lt_of_node_eq_validated (h : build script contracts = .ok graph) {index : Nat}
    {pointers : PointerSet} (hnode : graph.node index = .validated pointers) :
    script.sequence.length < index := by
  obtain ⟨outcomes, hnodes⟩ := exists_nodes_build h
  by_contra hle
  cases index with
  | zero =>
    rw [FlowGraph.node, hnodes] at hnode
    cases hnode
  | succ position =>
    have hlt : position < script.sequence.length := by omega
    rw [node_position h (List.getElem?_eq_getElem hlt)] at hnode
    cases hnode

/-- Where control only goes on, it goes to the next instruction. -/
theorem eq_of_adjacent_of_goesOn (h : build script contracts = .ok graph)
    {place : Location × Instruction} (hplace : script.sequence[position]? = some place)
    (hgoes : place.2.opcode.GoesOn) {target : Nat}
    (hadjacent : graph.Adjacent (position + 1) target) : target = position + 2 := by
  obtain ⟨edge, hedge, hsource, rfl⟩ := hadjacent
  have hlt := (List.getElem?_eq_some_iff.mp hplace).1
  have hnone : script.outcomeAt? contracts position = none := outcomeAt?_eq_none hplace hgoes.2.1
  rcases (edges_build h).2.2 edge hedge with ⟨rfl, -⟩ | ⟨other, link, hlink, hcarries⟩
  · simp at hsource
  · have hother (heq : other = position) :
        link = ⟨position + 1, .fallthrough, none⟩ := by
      subst heq
      cases hlink with
      | next hplace' _ _ => rw [hnone]; rfl
      | branch hplace' hbranch _ _ =>
        cases hplace.symm.trans hplace'
        rw [hgoes.2.1] at hbranch
        cases hbranch
      | choice hplace' hswitch _ _ =>
        cases hplace.symm.trans hplace'
        exact absurd hswitch hgoes.2.2
    cases hcarries with
    | direct hvia =>
      rw [hother (Nat.succ.inj hsource)]
    | into hvia _ _ =>
      rw [hother (Nat.succ.inj hsource)] at hvia
      cases hvia
    | out hvia _ hnode =>
      have hafter := lt_of_node_eq_validated h hnode
      dsimp only at hsource
      omega

/-- Inside a block, the only predecessor of an instruction after one from which control only goes on
is that one. -/
theorem adjacent_iff_of_sameBlock (h : build script contracts = .ok graph)
    {before place : Location × Instruction}
    (hbefore : script.sequence[position]? = some before)
    (hplace : script.sequence[position + 1]? = some place)
    (hblock : place.1.block = before.1.block) (hgoes : before.2.opcode.GoesOn) {source : Nat} :
    graph.Adjacent source (position + 2) ↔ source = position + 1 := by
  have hlt := (List.getElem?_eq_some_iff.mp hplace).1
  have hnone : script.outcomeAt? contracts position = none :=
    outcomeAt?_eq_none hbefore hgoes.2.1
  obtain ⟨hlinks, -, hedges⟩ := edges_build h
  constructor
  · rintro ⟨edge, hedge, rfl, htarget⟩
    rcases hedges edge hedge with ⟨rfl, -⟩ | ⟨other, link, hlink, hcarries⟩
    · simp at htarget
    · -- no label lands inside of a block, so only the instruction before leads here
      have hother (heq : link.target = position + 1) : other = position ∧ link.via = none := by
        cases hlink with
        | next _ _ _ =>
          obtain rfl : other = position := Nat.succ.inj heq
          rw [hnone]
          exact ⟨rfl, rfl⟩
        | branch _ _ _ hlanding =>
          subst heq
          exact absurd hlanding (landing?_ne_of_sameBlock hbefore hplace hblock _)
        | choice _ _ _ hlanding =>
          subst heq
          exact absurd hlanding (landing?_ne_of_sameBlock hbefore hplace hblock _)
      cases hcarries with
      | direct hvia => rw [(hother (Nat.succ.inj htarget)).1]
      | into hvia _ hnode =>
        have hafter := lt_of_node_eq_validated h hnode
        dsimp only at htarget
        omega
      | out hvia _ _ =>
        rw [(hother (Nat.succ.inj htarget)).2] at hvia
        cases hvia
  · rintro rfl
    have hlink := hlinks position _ (.next hbefore hgoes.1 hlt)
    rw [hnone] at hlink
    exact ⟨_, hlink, rfl, rfl⟩

end FlowGraph

end ScriptBackend

import Mathlib.Data.List.Pairwise
import ScriptBackend.Proofs.Flow.Passages
import ScriptBackend.Proofs.Flow.StepGraph

/-!
# Exits of comparisons

Of the edges that leave an instruction, no two are of one kind, apart from the cases of a switch.
Every outcome stands after one comparison, which is the only node that leads to it. Such a
comparison has two exits: one leads to the outcome, the other past it to an instruction.
-/

namespace ScriptBackend

/-- Whether two edges differ in source or in kind, unless they are cases of a switch. -/
def Edge.Apart (first second : Edge FlowEdge) : Prop :=
  first.source = second.source → first.kind = second.kind → first.kind = .switchCase

instance : Std.Symm Edge.Apart where
  symm _ _ h hsource hkind := hkind.trans (h hsource.symm hkind.symm)

namespace CompiledScript

/-- The successors of an instruction differ in kind, apart from the cases of a switch. -/
private theorem pairwise_successors (script : CompiledScript) (position : Nat)
    (instruction : Instruction) :
    (script.successors position instruction).Pairwise fun first second =>
      first.2 = second.2 → first.2 = .switchCase := by
  have hkind {kind : FlowEdge} {targets : List Nat} {entry : Nat × FlowEdge}
      (hentry : entry ∈ targets.map (·, kind)) : entry.2 = kind := by
    obtain ⟨target, -, rfl⟩ := List.mem_map.mp hentry
    rfl
  unfold successors
  rw [List.pairwise_append, List.pairwise_append]
  refine ⟨?_, ⟨?_, ?_, ?_⟩, ?_⟩
  · split <;> simp
  · split
    · cases instruction.label?.bind script.landing? <;> simp
    · simp
  · rw [List.pairwise_map]
    exact List.pairwise_of_forall fun _ _ _ => rfl
  · intro first hfirst second hsecond heq
    rw [hkind hfirst, hkind hsecond] at heq
    cases heq
  · intro first hfirst second hsecond heq
    rw [hkind hfirst] at heq
    rcases List.mem_append.mp hsecond with hsecond | hsecond
    · rw [hkind hsecond] at heq
      cases heq
    · rw [hkind hsecond] at heq
      cases heq

/-- The steps of a script from one place differ in kind, apart from the cases of a switch. -/
theorem pairwise_steps (script : CompiledScript) : script.steps.Pairwise Edge.Apart := by
  unfold steps
  rw [List.pairwise_append, List.pairwise_flatMap]
  refine ⟨?_, ⟨?_, ?_⟩, ?_⟩
  · split <;> simp
  · rintro ⟨place, position⟩ -
    rw [List.pairwise_map]
    refine (script.pairwise_successors position place.2).imp fun {first second} hkinds => ?_
    intro _ hkind
    exact hkinds hkind
  · refine (pairwise_zipIdx script.sequence 0).imp fun {first second} hlt => ?_
    intro edge hedge other hother hsource
    obtain ⟨_, -, rfl⟩ := List.mem_map.mp hedge
    obtain ⟨_, -, rfl⟩ := List.mem_map.mp hother
    dsimp only at hsource
    omega
  · intro edge hedge other hother hsource
    obtain ⟨⟨place, position⟩, -, hother⟩ := List.mem_flatMap.mp hother
    obtain ⟨_, -, rfl⟩ := List.mem_map.mp hother
    split at hedge
    · cases hedge
    · rw [List.mem_singleton.mp hedge] at hsource
      dsimp only at hsource
      omega

variable {script : CompiledScript} {contracts : Contracts}

/-- A link leads to an instruction. -/
theorem IsLink.target_lt {position : Nat} {link : Link}
    (h : script.IsLink contracts position link) : link.target < script.sequence.length := by
  cases h with
  | next _ _ hlt => exact hlt
  | branch _ _ _ hlanding => exact landing?_lt hlanding
  | choice _ _ _ hlanding => exact landing?_lt hlanding

/-- A link on which pointers become valid leaves a comparison that has a successful outcome. -/
theorem IsLink.exists_success {position : Nat} {link : Link} {pointers : PointerSet}
    (h : script.IsLink contracts position link) (hvia : link.via = some pointers) :
    ∃ success, script.outcomeAt? contracts position = some success ∧
      success.pointers = pointers := by
  cases h with
  | next _ _ _ =>
    obtain ⟨success, hsuccess, rfl⟩ := Option.map_eq_some_iff.mp hvia
    exact ⟨success, (Option.filter_eq_some_iff.mp hsuccess).1, rfl⟩
  | branch _ _ _ _ =>
    obtain ⟨success, hsuccess, rfl⟩ := Option.map_eq_some_iff.mp hvia
    exact ⟨success, (Option.filter_eq_some_iff.mp hsuccess).1, rfl⟩
  | choice _ _ _ _ => cases hvia

end CompiledScript

/-- The kind of the edge that control takes from a comparison. -/
def FlowEdge.ofTest (holds : Bool) : FlowEdge := if holds then .branch else .fallthrough

namespace FlowGraph

variable {script : CompiledScript} {contracts : Contracts} {graph : FlowGraph}

/-- Two edges of one kind from an instruction are the same, apart from the cases of a switch. -/
theorem eq_of_kind_eq (h : build script contracts = .ok graph) {first second : Edge FlowEdge}
    (hfirst : first ∈ graph.edges) (hsecond : second ∈ graph.edges)
    (hle : first.source ≤ script.sequence.length) (hsource : first.source = second.source)
    (hkind : first.kind = second.kind) (hswitch : first.kind ≠ .switchCase) : first = second := by
  have hcontracts := contractsTo_build h
  have hkept (edge : Edge FlowEdge) (hedge : edge ∈ graph.edges)
      (hle : edge.source ≤ script.sequence.length) :
      edge ∈ graph.edges.filter fun edge => !isOutcome (graph.node edge.source) := by
    refine List.mem_filter.mpr ⟨hedge, ?_⟩
    have hiff := hcontracts.isOutcome_iff edge.source (hcontracts.bounds edge hedge).1
    rw [Bool.not_eq_true', Bool.eq_false_iff, ne_eq, hiff]
    omega
  have hpairwise := script.pairwise_steps
  rw [← hcontracts.contracted_eq, contracted, List.pairwise_map] at hpairwise
  have hapart : (graph.edges.filter fun edge => !isOutcome (graph.node edge.source)).Pairwise
      Edge.Apart := hpairwise.imp fun h => h
  by_contra hne
  exact hswitch (hapart.forall (hkept first hfirst hle) (hkept second hsecond (hsource ▸ hle)) hne
    hsource hkind)

/-- Only one node leads to an outcome. -/
theorem adjacent_outcome_iff (h : build script contracts = .ok graph) {edge : Edge FlowEdge}
    {pointers : PointerSet} (hedge : edge ∈ graph.edges)
    (hnode : graph.node edge.target = .validated pointers) {source : Nat} :
    graph.Adjacent source edge.target ↔ source = edge.source := by
  have houtcome : isOutcome (graph.node edge.target) = true := by
    rw [hnode]
    rfl
  obtain ⟨only, -, hincoming, -, -⟩ := (contractsTo_build h).hasPassages edge.target houtcome
  have honly (other : Edge FlowEdge) (hother : other ∈ graph.edges)
      (htarget : other.target = edge.target) : other = only := by
    have hmem : other ∈ graph.incoming edge.target :=
      List.mem_reverse.mpr (List.mem_filter.mpr ⟨hother, decide_eq_true htarget⟩)
    rw [hincoming] at hmem
    exact List.mem_singleton.mp hmem
  constructor
  · rintro ⟨other, hother, rfl, htarget⟩
    rw [honly other hother htarget, honly edge hedge rfl]
  · rintro rfl
    exact ⟨edge, hedge, rfl, rfl⟩

/-- Every outcome stands after a comparison that has a successful outcome with its pointers. -/
theorem exists_success_of_node (h : build script contracts = .ok graph) {outcome : Nat}
    {pointers : PointerSet} (hnode : graph.node outcome = .validated pointers) :
    ∃ position success, script.outcomeAt? contracts position = some success ∧
      success.pointers = pointers ∧
      ∀ source, graph.Adjacent source outcome ↔ source = position + 1 := by
  have houtcome : isOutcome (graph.node outcome) = true := by
    rw [hnode]
    rfl
  have hafter := lt_of_node_eq_validated h hnode
  obtain ⟨edge, -, hincoming, -, -⟩ := (contractsTo_build h).hasPassages outcome houtcome
  have hmem : edge ∈ graph.incoming outcome := by
    rw [hincoming]
    exact List.mem_cons_self
  obtain ⟨hedge, htarget⟩ := List.mem_filter.mp (List.mem_reverse.mp hmem)
  obtain rfl : edge.target = outcome := of_decide_eq_true htarget
  have honly (source : Nat) : graph.Adjacent source edge.target ↔ source = edge.source :=
    adjacent_outcome_iff h hedge hnode
  rcases (edges_build h).2.2 edge hedge with ⟨rfl, hne⟩ | ⟨position, link, hlink, hcarries⟩
  · have hpos := List.length_pos_iff.mpr hne
    dsimp only at hafter
    omega
  · cases hcarries with
    | direct hvia =>
      have htarget := hlink.target_lt
      dsimp only at hafter
      omega
    | into hvia _ hnode' =>
      rw [hnode] at hnode'
      cases hnode'
      obtain ⟨success, hsuccess, hpointers⟩ := hlink.exists_success hvia
      exact ⟨position, success, hsuccess, hpointers, honly⟩
    | out hvia _ _ =>
      have htarget := hlink.target_lt
      dsimp only at hafter
      omega

/-- The edges of a branch are those of its two ways to come out. -/
theorem exists_kind_of_isBranch (h : build script contracts = .ok graph) {position : Nat}
    {place : Location × Instruction} (hplace : script.sequence[position]? = some place)
    (hbranch : place.2.opcode.isBranch = true) {edge : Edge FlowEdge} (hedge : edge ∈ graph.edges)
    (hsource : edge.source = position + 1) : ∃ holds, edge.kind = .ofTest holds := by
  have hlt := (List.getElem?_eq_some_iff.mp hplace).1
  rcases (edges_build h).2.2 edge hedge with ⟨rfl, -⟩ | ⟨other, link, hlink, hcarries⟩
  · cases hsource
  · have hkind (heq : other = position) : ∃ holds, link.kind = .ofTest holds := by
      subst heq
      cases hlink with
      | next _ _ _ => exact ⟨false, rfl⟩
      | branch _ _ _ _ => exact ⟨true, rfl⟩
      | choice hplace' hswitch _ _ =>
        cases hplace.symm.trans hplace'
        rw [hswitch] at hbranch
        cases hbranch
    cases hcarries with
    | direct _ => exact hkind (Nat.succ.inj hsource)
    | into _ _ _ => exact hkind (Nat.succ.inj hsource)
    | out _ _ hnode =>
      have hafter := lt_of_node_eq_validated h hnode
      dsimp only at hsource
      omega

/-- An instruction has one edge for each way that a test comes out. -/
theorem mem_edges_ofTest_iff (h : build script contracts = .ok graph) {source target : Nat}
    {holds : Bool} (hle : source ≤ script.sequence.length)
    (hedge : ⟨source, target, .ofTest holds⟩ ∈ graph.edges) {next : Nat} :
    ⟨source, next, .ofTest holds⟩ ∈ graph.edges ↔ next = target := by
  have hswitch : FlowEdge.ofTest holds ≠ .switchCase := by
    cases holds <;> exact FlowEdge.noConfusion
  constructor
  · intro hnext
    exact congrArg Edge.target (eq_of_kind_eq h hnext hedge hle rfl rfl hswitch)
  · rintro rfl
    exact hedge

/-- A comparison with a successful outcome has an edge to the outcome and one past it. -/
private theorem exists_exit_edges (h : build script contracts = .ok graph) {position target : Nat}
    {place : Location × Instruction} {label : Label} {success : SuccessOutcome}
    (hplace : script.sequence[position]? = some place)
    (hnext : position + 1 < script.sequence.length) (hlabel : place.2.label? = some label)
    (hlanding : script.landing? label = some target)
    (hsuccess : script.outcomeAt? contracts position = some success) :
    ∃ outcome other, graph.node outcome = .validated success.pointers ∧
      other ≤ script.sequence.length ∧
      ⟨position + 1, outcome, .ofTest success.onBranch⟩ ∈ graph.edges ∧
      ⟨position + 1, other, .ofTest (!success.onBranch)⟩ ∈ graph.edges := by
  obtain ⟨hgoes, hbranch⟩ : place.2.opcode.isTerminal = false ∧ place.2.opcode.isBranch = true := by
    obtain ⟨found, hfound, hopcode⟩ := CompiledScript.opcode_of_outcomeAt? hsuccess
    cases hplace.symm.trans hfound
    rcases hopcode with hopcode | hopcode
    · rw [hopcode]
      exact ⟨rfl, rfl⟩
    · rw [hopcode]
      exact ⟨rfl, rfl⟩
  have hlinks := (edges_build h).1 position
  have hfall := hlinks _ (.next hplace hgoes hnext)
  have hjump := hlinks _ (.branch hplace hbranch hlabel hlanding)
  rw [hsuccess] at hfall hjump
  -- one of the two links is a passage, the other a single edge
  obtain ⟨pointers, onBranch⟩ := success
  cases onBranch with
  | true =>
    obtain ⟨outcome, -, hnode, hinto, -⟩ := hjump
    exact ⟨outcome, position + 2, hnode, hnext, hinto, hfall⟩
  | false =>
    obtain ⟨outcome, -, hnode, hinto, -⟩ := hfall
    exact ⟨outcome, target + 1, hnode, CompiledScript.landing?_lt hlanding, hinto, hjump⟩

/-- A comparison with a successful outcome has two exits: to the outcome and past it. -/
theorem exists_exits (h : build script contracts = .ok graph) {position target : Nat}
    {place : Location × Instruction} {label : Label} {success : SuccessOutcome}
    (hplace : script.sequence[position]? = some place)
    (hnext : position + 1 < script.sequence.length) (hlabel : place.2.label? = some label)
    (hlanding : script.landing? label = some target)
    (hsuccess : script.outcomeAt? contracts position = some success) :
    ∃ outcome other, graph.node outcome = .validated success.pointers ∧
      other ≤ script.sequence.length ∧ ∀ holds next,
        ⟨position + 1, next, .ofTest holds⟩ ∈ graph.edges ↔
          next = if holds = success.onBranch then outcome else other := by
  have hlt := (List.getElem?_eq_some_iff.mp hplace).1
  obtain ⟨outcome, other, hnode, hother, hinto, hpast⟩ :=
    exists_exit_edges h hplace hnext hlabel hlanding hsuccess
  refine ⟨outcome, other, hnode, hother, fun holds next => ?_⟩
  by_cases hholds : holds = success.onBranch
  · rw [if_pos hholds, hholds]
    exact mem_edges_ofTest_iff h hlt hinto
  · rw [if_neg hholds, Bool.eq_not_of_ne hholds]
    exact mem_edges_ofTest_iff h hlt hpast

end FlowGraph

end ScriptBackend

import Mathlib.Logic.Relation
import ScriptBackend.Proofs.Flow.Exits

/-!
# Runs on flow graphs

Control moves along the edges of a flow graph. The integer stack decides which edge leaves a
comparison of integers: the branch if it holds, else the way to the next instruction. What commands
and all other instructions leave on the stack is open.

Where a command sets pointers on success and its result is compared with zero or one in the same
block, the comparison has an outcome. Control always comes to such a comparison from the command,
and it goes on to the outcome exactly if the result was one.
-/

namespace ScriptBackend

/-- A state of a run on a flow graph. -/
structure FlowState where
  /-- The node that control is at. -/
  node : Nat
  /-- The integer stack, from the top. -/
  integers : List Int32
  deriving DecidableEq, Repr

/-- How an integer comparison comes out for the value below the top and the top of the stack. -/
def Opcode.integerTest? : Opcode → Option (Int32 → Int32 → Bool)
  | .branchEquals => some fun left right => left == right
  | .branchNot => some fun left right => left != right
  | .branchLessThan => some fun left right => left < right
  | .branchGreaterThan => some fun left right => left > right
  | .branchLessThanOrEquals => some fun left right => left ≤ right
  | .branchGreaterThanOrEquals => some fun left right => left ≥ right
  | _ => none

/-- What compares integers is a branch. -/
theorem isBranch_of_integerTest? {opcode : Opcode} {test : Int32 → Int32 → Bool}
    (h : opcode.integerTest? = some test) : opcode.isBranch = true := by
  cases opcode <;> first | rfl | cases h

/-- What it means to push an integer. -/
theorem Instruction.isPushInt_iff {instruction : Instruction} {value : Int32} :
    instruction.isPushInt value = true ↔
      instruction.opcode = .pushConstantInt ∧ instruction.int? = some value := by
  rw [isPushInt, Bool.and_eq_true, decide_eq_true_eq, decide_eq_true_eq]

namespace FlowGraph

/-- One step of a run. -/
inductive Step (graph : FlowGraph) : FlowState → FlowState → Prop where
  /-- Control starts or goes on from an outcome. -/
  | pass {edge : Edge FlowEdge} {integers : List Int32} (hedge : edge ∈ graph.edges)
      (hnode : (graph.node edge.source).instruction? = none) :
      Step graph ⟨edge.source, integers⟩ ⟨edge.target, integers⟩
  /-- A constant integer is pushed. -/
  | push {edge : Edge FlowEdge} {instruction : Instruction} {value : Int32}
      {integers : List Int32} (hedge : edge ∈ graph.edges)
      (hnode : (graph.node edge.source).instruction? = some instruction)
      (hpush : instruction.isPushInt value = true) :
      Step graph ⟨edge.source, integers⟩ ⟨edge.target, value :: integers⟩
  /-- Two integers are compared. -/
  | compare {edge : Edge FlowEdge} {instruction : Instruction} {test : Int32 → Int32 → Bool}
      {left right : Int32} {integers : List Int32} (hedge : edge ∈ graph.edges)
      (hnode : (graph.node edge.source).instruction? = some instruction)
      (htest : instruction.opcode.integerTest? = some test)
      (hkind : edge.kind = .ofTest (test left right)) :
      Step graph ⟨edge.source, right :: left :: integers⟩ ⟨edge.target, integers⟩
  /-- Any other instruction may leave any integers and go on along any of its edges. -/
  | other {edge : Edge FlowEdge} {instruction : Instruction} {before after : List Int32}
      (hedge : edge ∈ graph.edges)
      (hnode : (graph.node edge.source).instruction? = some instruction)
      (hpush : instruction.opcode ≠ .pushConstantInt)
      (htest : instruction.opcode.integerTest? = none) :
      Step graph ⟨edge.source, before⟩ ⟨edge.target, after⟩

/-- Whether a state occurs in some run from the entry. -/
def Occurs (graph : FlowGraph) (state : FlowState) : Prop :=
  ∃ integers, Relation.ReflTransGen graph.Step ⟨entry, integers⟩ state

variable {script : CompiledScript} {contracts : Contracts} {graph : FlowGraph}
  {start final : FlowState}

/-- A step follows an edge. -/
theorem Step.adjacent (h : graph.Step start final) : graph.Adjacent start.node final.node := by
  cases h with
  | pass hedge _ => exact ⟨_, hedge, rfl, rfl⟩
  | push hedge _ _ => exact ⟨_, hedge, rfl, rfl⟩
  | compare hedge _ _ _ => exact ⟨_, hedge, rfl, rfl⟩
  | other hedge _ _ _ => exact ⟨_, hedge, rfl, rfl⟩

/-- A state that occurs and is not at the entry comes from another one. -/
theorem Occurs.exists_step (h : graph.Occurs final) (hnode : final.node ≠ entry) :
    ∃ start, graph.Occurs start ∧ graph.Step start final := by
  obtain ⟨integers, hrun⟩ := h
  rcases Relation.ReflTransGen.cases_tail hrun with rfl | ⟨start, hstart, hstep⟩
  · exact absurd rfl hnode
  · exact ⟨start, ⟨integers, hstart⟩, hstep⟩

/-- A push pushes its integer and goes on. -/
theorem step_push_iff (h : build script contracts = .ok graph) {position : Nat}
    {place : Location × Instruction} {value : Int32}
    (hplace : script.sequence[position]? = some place) (hpush : place.2.isPushInt value = true)
    (hnext : position + 1 < script.sequence.length) (hstart : start.node = position + 1) :
    graph.Step start final ↔ final = ⟨position + 2, value :: start.integers⟩ := by
  obtain ⟨hopcode, hvalue⟩ := Instruction.isPushInt_iff.mp hpush
  have hgoes : place.2.opcode.GoesOn := by
    rw [hopcode]
    exact ⟨rfl, rfl, Opcode.noConfusion⟩
  have hnode : (graph.node start.node).instruction? = some place.2 := by
    rw [hstart, node_position h hplace]
    rfl
  constructor
  · intro hstep
    have htarget : final.node = position + 2 :=
      eq_of_adjacent_of_goesOn h hplace hgoes (hstart ▸ hstep.adjacent)
    have hintegers : final.integers = value :: start.integers := by
      cases hstep with
      | pass _ hnode' =>
        rw [hnode] at hnode'
        cases hnode'
      | push _ hnode' hpush' =>
        cases hnode.symm.trans hnode'
        cases hvalue.symm.trans (Instruction.isPushInt_iff.mp hpush').2
        rfl
      | compare _ hnode' htest _ =>
        cases hnode.symm.trans hnode'
        rw [hopcode] at htest
        cases htest
      | other _ hnode' hother _ =>
        cases hnode.symm.trans hnode'
        exact absurd hopcode hother
    rw [← htarget, ← hintegers]
  · rintro rfl
    have hlink := (edges_build h).1 position _ (.next hplace hgoes.1 hnext)
    rw [CompiledScript.outcomeAt?_eq_none hplace hgoes.2.1] at hlink
    have hedge : ⟨position + 1, position + 2, .fallthrough⟩ ∈ graph.edges := hlink
    obtain ⟨node, integers⟩ := start
    cases hstart
    exact .push hedge hnode hpush

/-- A comparison takes two integers off the stack and goes where its test says. -/
theorem step_compare_iff (h : build script contracts = .ok graph) {position : Nat}
    {place : Location × Instruction} {test : Int32 → Int32 → Bool}
    (hplace : script.sequence[position]? = some place)
    (htest : place.2.opcode.integerTest? = some test) (hstart : start.node = position + 1) :
    graph.Step start final ↔ ∃ left right, start.integers = right :: left :: final.integers ∧
      ⟨position + 1, final.node, .ofTest (test left right)⟩ ∈ graph.edges := by
  have hnode : (graph.node start.node).instruction? = some place.2 := by
    rw [hstart, node_position h hplace]
    rfl
  constructor
  · intro hstep
    rw [← hstart]
    cases hstep with
    | pass _ hnode' =>
      rw [hnode] at hnode'
      cases hnode'
    | push _ hnode' hpush =>
      cases hnode.symm.trans hnode'
      rw [(Instruction.isPushInt_iff.mp hpush).1] at htest
      cases htest
    | @compare edge _ _ left right _ hedge hnode' htest' hkind =>
      cases hnode.symm.trans hnode'
      cases htest.symm.trans htest'
      refine ⟨left, right, rfl, ?_⟩
      rw [← hkind]
      exact hedge
    | other _ hnode' _ hother =>
      cases hnode.symm.trans hnode'
      rw [htest] at hother
      cases hother
  · rintro ⟨left, right, hintegers, hedge⟩
    obtain ⟨node, integers⟩ := start
    cases hstart
    cases hintegers
    exact Step.compare hedge hnode htest rfl

end FlowGraph

/-- A comparison that tells success from failure takes the branch of success exactly for the result
one, if the result is zero or one. -/
theorem exists_test_of_branchesOnSuccess? {push branch : Instruction} {onBranch : Bool}
    (h : branchesOnSuccess? push branch = some onBranch) :
    ∃ value test, push.isPushInt value = true ∧ branch.opcode.integerTest? = some test ∧
      ∀ result : Int32, result = 0 ∨ result = 1 → (test result value = onBranch ↔ result = 1) := by
  unfold branchesOnSuccess? at h
  split at h
  · next hopcode =>
    rw [hopcode]
    split at h
    · next hone =>
      cases h
      refine ⟨1, _, hone, rfl, ?_⟩
      rintro _ (rfl | rfl) <;> decide
    · split at h
      · next hzero =>
        cases h
        refine ⟨0, _, hzero, rfl, ?_⟩
        rintro _ (rfl | rfl) <;> decide
      · cases h
  · next hopcode =>
    rw [hopcode]
    split at h
    · next hzero =>
      cases h
      refine ⟨0, _, hzero, rfl, ?_⟩
      rintro _ (rfl | rfl) <;> decide
    · split at h
      · next hone =>
        cases h
        refine ⟨1, _, hone, rfl, ?_⟩
        rintro _ (rfl | rfl) <;> decide
      · cases h
  · cases h

/-- Three instructions have a successful outcome when the first sets pointers on success and the
other two tell success from failure. -/
theorem successOutcome?_eq_some_iff {contracts : Contracts} {command push branch : Instruction}
    {success : SuccessOutcome} :
    successOutcome? contracts command push branch = some success ↔
      command.conditionalSet? contracts = some success.pointers ∧
        branchesOnSuccess? push branch = some success.onBranch := by
  unfold successOutcome?
  obtain ⟨pointers, onBranch⟩ := success
  cases command.conditionalSet? contracts with
  | none => simp
  | some set =>
    cases branchesOnSuccess? push branch with
    | none => simp
    | some branches => simp

/-- What sets pointers on success is a command. -/
theorem Instruction.opcode_of_conditionalSet? {contracts : Contracts} {command : Instruction}
    {pointers : PointerSet} (h : command.conditionalSet? contracts = some pointers) :
    command.opcode = .command := by
  unfold conditionalSet? at h
  split at h
  · assumption
  · cases h

namespace FlowGraph

/-- What holds where an outcome stands for the success of the command at a position, whose result is
compared with a pushed integer. -/
structure ShowsSuccess (graph : FlowGraph) (script : CompiledScript) (position : Nat)
    (command push : Instruction) (outcome : Nat) : Prop where
  /-- The command, the push and the comparison stand in one block. -/
  sameBlock : ∃ first second third branch, script.sequence[position]? = some (first, command) ∧
    script.sequence[position + 1]? = some (second, push) ∧
    script.sequence[position + 2]? = some (third, branch) ∧
    second.block = first.block ∧ third.block = first.block
  /-- Only the command leads to the push. -/
  before_push : ∀ source, graph.Adjacent source (position + 2) ↔ source = position + 1
  /-- Only the push leads to the comparison. -/
  before_branch : ∀ source, graph.Adjacent source (position + 3) ↔ source = position + 2
  /-- Only the comparison leads to the outcome. -/
  before_outcome : ∀ source, graph.Adjacent source outcome ↔ source = position + 3
  /-- The comparison leads to no other outcome. -/
  eq_outcome : ∀ next pointers, graph.Adjacent (position + 3) next →
    graph.node next = .validated pointers → next = outcome
  /-- When the command has left zero or one, control comes to the comparison and goes on in one way
  only, and that is to the outcome exactly if the command has left one. -/
  passes : ∀ start after result rest, start.node = position + 1 → graph.Step start after →
    after.integers = result :: rest → result = 0 ∨ result = 1 →
    ∃ middle final, graph.Step after middle ∧ graph.Step middle final ∧
      middle.node = position + 3 ∧ (final.node = outcome ↔ result = 1) ∧
      ∀ middle' final', graph.Step after middle' → graph.Step middle' final' →
        middle' = middle ∧ final' = final
  /-- In every run control comes to the outcome from the command, which has not left zero. -/
  comes : ∀ final, graph.Occurs final → final.node = outcome →
    ∃ start after middle result rest, graph.Occurs start ∧ start.node = position + 1 ∧
      graph.Step start after ∧ after.integers = result :: rest ∧ graph.Step after middle ∧
      graph.Step middle final ∧ result ≠ 0

/-- How control moves from a command at a position over a push and a comparison to an outcome or
past it. -/
private structure Leads (graph : FlowGraph) (position : Nat) (value : Int32)
    (test : Int32 → Int32 → Bool) (onBranch : Bool) (outcome other : Nat) : Prop where
  before_push : ∀ source, graph.Adjacent source (position + 2) ↔ source = position + 1
  before_branch : ∀ source, graph.Adjacent source (position + 3) ↔ source = position + 2
  before_outcome : ∀ source, graph.Adjacent source outcome ↔ source = position + 3
  /-- The command goes on to the push. -/
  after_command : ∀ target, graph.Adjacent (position + 1) target → target = position + 2
  /-- The comparison goes on to no other outcome. -/
  after_branch : ∀ next pointers, graph.Adjacent (position + 3) next →
    graph.node next = .validated pointers → next = outcome
  step_push : ∀ {start final : FlowState}, start.node = position + 2 →
    (graph.Step start final ↔ final = ⟨position + 3, value :: start.integers⟩)
  step_branch : ∀ {start final : FlowState}, start.node = position + 3 →
    (graph.Step start final ↔ ∃ left right, start.integers = right :: left :: final.integers ∧
      final.node = if test left right = onBranch then outcome else other)
  /-- The test tells the result one from the result zero. -/
  test_eq_iff : ∀ result : Int32, result = 0 ∨ result = 1 →
    (test result value = onBranch ↔ result = 1)
  outcome_ne_entry : outcome ≠ entry
  outcome_ne_other : outcome ≠ other

section Leads

variable {graph : FlowGraph} {position : Nat} {value : Int32} {test : Int32 → Int32 → Bool}
  {onBranch : Bool} {outcome other : Nat}

/-- Once the command has left zero or one, control has one way, and it leads to the outcome exactly
for one. -/
private theorem Leads.passes (h : graph.Leads position value test onBranch outcome other)
    {start after : FlowState} {result : Int32} {rest : List Int32}
    (hstart : start.node = position + 1) (hstep : graph.Step start after)
    (hintegers : after.integers = result :: rest) (hresult : result = 0 ∨ result = 1) :
    ∃ middle final, graph.Step after middle ∧ graph.Step middle final ∧
      middle.node = position + 3 ∧ (final.node = outcome ↔ result = 1) ∧
      ∀ middle' final', graph.Step after middle' → graph.Step middle' final' →
        middle' = middle ∧ final' = final := by
  have hafter : after.node = position + 2 := h.after_command _ (hstart ▸ hstep.adjacent)
  have hpush {middle : FlowState} :
      graph.Step after middle ↔ middle = ⟨position + 3, value :: result :: rest⟩ := by
    rw [h.step_push hafter, hintegers]
  refine ⟨⟨position + 3, value :: result :: rest⟩,
    ⟨if test result value = onBranch then outcome else other, rest⟩, hpush.mpr rfl,
    (h.step_branch rfl).mpr ⟨result, value, rfl, rfl⟩, rfl, ?_, ?_⟩
  · rw [← h.test_eq_iff result hresult]
    by_cases htest : test result value = onBranch
    · simp [htest]
    · simpa [htest] using h.outcome_ne_other.symm
  · intro middle final hmiddle hfinal
    cases hpush.mp hmiddle
    obtain ⟨left, right, hboth, hnode⟩ := (h.step_branch rfl).mp hfinal
    cases final
    cases hboth
    exact ⟨rfl, by rw [← hnode]⟩

/-- Control at the outcome comes from the command, which has not left zero. -/
private theorem Leads.comes (h : graph.Leads position value test onBranch outcome other)
    {final : FlowState} (hoccurs : graph.Occurs final) (hfinal : final.node = outcome) :
    ∃ start after middle result rest, graph.Occurs start ∧ start.node = position + 1 ∧
      graph.Step start after ∧ after.integers = result :: rest ∧ graph.Step after middle ∧
      graph.Step middle final ∧ result ≠ 0 := by
  -- three steps back, each to the only predecessor
  obtain ⟨middle, hmiddleOccurs, hlast⟩ := hoccurs.exists_step (hfinal ▸ h.outcome_ne_entry)
  have hmiddle : middle.node = position + 3 :=
    (h.before_outcome _).mp (hfinal ▸ hlast.adjacent)
  obtain ⟨after, hafterOccurs, hpush⟩ := hmiddleOccurs.exists_step (hmiddle ▸ Nat.succ_ne_zero _)
  have hafter : after.node = position + 2 := (h.before_branch _).mp (hmiddle ▸ hpush.adjacent)
  obtain ⟨start, hstartOccurs, hfirst⟩ := hafterOccurs.exists_step (hafter ▸ Nat.succ_ne_zero _)
  have hstart : start.node = position + 1 := (h.before_push _).mp (hafter ▸ hfirst.adjacent)
  obtain ⟨result, right, hboth, hnode⟩ := (h.step_branch hmiddle).mp hlast
  rw [(h.step_push hafter).mp hpush, List.cons.injEq] at hboth
  obtain ⟨rfl, hintegers⟩ := hboth
  refine ⟨start, after, middle, result, final.integers, hstartOccurs, hstart, hfirst, hintegers,
    hpush, hlast, ?_⟩
  rintro rfl
  have htest : test 0 value ≠ onBranch := by
    rw [ne_eq, h.test_eq_iff 0 (.inl rfl)]
    decide
  rw [hfinal, if_neg htest] at hnode
  exact h.outcome_ne_other hnode

end Leads

variable {script : CompiledScript} {contracts : Contracts} {graph : FlowGraph}

/-- A command, a push and a comparison in one block that have a successful outcome lead to it. -/
private theorem exists_leads (h : build script contracts = .ok graph) {position target : Nat}
    {command push branch : Location × Instruction} {label : Label} {success : SuccessOutcome}
    (hcommand : script.sequence[position]? = some command)
    (hpush : script.sequence[position + 1]? = some push)
    (hbranch : script.sequence[position + 2]? = some branch)
    (hpushBlock : push.1.block = command.1.block) (hbranchBlock : branch.1.block = push.1.block)
    (hnext : position + 3 < script.sequence.length) (hlabel : branch.2.label? = some label)
    (hlanding : script.landing? label = some target)
    (hsuccess : successOutcome? contracts command.2 push.2 branch.2 = some success) :
    ∃ outcome other value test, graph.node outcome = .validated success.pointers ∧
      graph.Leads position value test success.onBranch outcome other := by
  have houtcome : script.outcomeAt? contracts (position + 2) = some success :=
    CompiledScript.outcomeAt?_eq_some_iff.mpr
      ⟨position, command, push, branch, rfl, hcommand, hpush, hbranch, hsuccess⟩
  obtain ⟨outcome, other, hnode, hother, hexits⟩ :=
    exists_exits h hbranch hnext hlabel hlanding houtcome
  have hafter := lt_of_node_eq_validated h hnode
  obtain ⟨hset, hbranches⟩ := successOutcome?_eq_some_iff.mp hsuccess
  obtain ⟨value, test, hvalue, htest, hresult⟩ := exists_test_of_branchesOnSuccess? hbranches
  have hcommandGoes : command.2.opcode.GoesOn := by
    rw [Instruction.opcode_of_conditionalSet? hset]
    exact ⟨rfl, rfl, Opcode.noConfusion⟩
  have hpushGoes : push.2.opcode.GoesOn := by
    rw [(Instruction.isPushInt_iff.mp hvalue).1]
    exact ⟨rfl, rfl, Opcode.noConfusion⟩
  refine ⟨outcome, other, value, test, hnode, ?_⟩
  constructor
  case before_push =>
    exact fun _ => adjacent_iff_of_sameBlock h hcommand hpush hpushBlock hcommandGoes
  case before_branch =>
    exact fun _ => adjacent_iff_of_sameBlock h hpush hbranch hbranchBlock hpushGoes
  case before_outcome =>
    have hinto := (hexits success.onBranch outcome).mpr (if_pos rfl).symm
    exact fun _ => adjacent_outcome_iff h hinto hnode
  case after_command =>
    exact fun _ => eq_of_adjacent_of_goesOn h hcommand hcommandGoes
  case after_branch =>
    rintro next pointers ⟨edge, hedge, hsource, rfl⟩ hvalidated
    have hlt := lt_of_node_eq_validated h hvalidated
    obtain ⟨holds, hkind⟩ :=
      exists_kind_of_isBranch h hbranch (isBranch_of_integerTest? htest) hedge hsource
    have hexit := (hexits holds edge.target).mp (by rw [← hkind, ← hsource]; exact hedge)
    split at hexit
    · exact hexit
    · omega
  case step_push => exact step_push_iff h hpush hvalue (by omega)
  case step_branch =>
    intro start final hstart
    rw [step_compare_iff h hbranch htest hstart]
    simp only [hexits]
  case test_eq_iff => exact hresult
  case outcome_ne_entry => exact Nat.ne_zero_of_lt hafter
  case outcome_ne_other => omega

/-- The outcome of a comparison of a command's result in one block stands for the success of the
command. -/
theorem exists_showsSuccess (h : build script contracts = .ok graph) {position target : Nat}
    {command push branch : Location × Instruction} {label : Label} {success : SuccessOutcome}
    (hcommand : script.sequence[position]? = some command)
    (hpush : script.sequence[position + 1]? = some push)
    (hbranch : script.sequence[position + 2]? = some branch)
    (hpushBlock : push.1.block = command.1.block) (hbranchBlock : branch.1.block = push.1.block)
    (hnext : position + 3 < script.sequence.length) (hlabel : branch.2.label? = some label)
    (hlanding : script.landing? label = some target)
    (hsuccess : successOutcome? contracts command.2 push.2 branch.2 = some success) :
    ∃ outcome, graph.node outcome = .validated success.pointers ∧
      graph.ShowsSuccess script position command.2 push.2 outcome := by
  obtain ⟨outcome, other, value, test, hnode, hleads⟩ := exists_leads h hcommand hpush hbranch
    hpushBlock hbranchBlock hnext hlabel hlanding hsuccess
  refine ⟨outcome, hnode, ?_, hleads.before_push, hleads.before_branch, hleads.before_outcome,
    hleads.after_branch, fun _ _ _ _ => hleads.passes, fun _ => hleads.comes⟩
  exact ⟨command.1, push.1, branch.1, branch.2, hcommand, hpush, hbranch, hpushBlock,
    hbranchBlock.trans hpushBlock⟩

end FlowGraph

end ScriptBackend

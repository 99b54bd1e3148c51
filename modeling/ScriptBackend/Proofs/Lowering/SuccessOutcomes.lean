import ScriptBackend.Proofs.Flow.IntegerRuns
import ScriptBackend.Proofs.Lowering.Comparisons
import ScriptBackend.Proofs.Lowering.WellFormed

/-!
# Success outcomes of emitted scripts

A flow graph looks for outcomes in the last three instructions up to a branch, whatever they were
emitted for. In an emitted script it finds exactly the comparisons that test a command for success:
the left operand ends in a command that sets pointers on success, the right operand is the push of
zero or one, and the two are compared as integers for being equal or different. The outcome is then
reached exactly when the command succeeds.
-/

namespace ScriptBackend

/-- Whether an instruction runs a command that sets some pointers, and at least one, only on
success. -/
def Instruction.SetsOnSuccess (instruction : Instruction) (contracts : Contracts)
    (pointers : PointerSet) : Prop :=
  instruction.opcode = .command ∧ ∃ symbol, instruction.symbol? = some (.command symbol) ∧
    (contracts.get symbol.name).conditional = true ∧
    (contracts.get symbol.name).set = pointers ∧ pointers.isEmpty = false

/-- Whether a comparison tests a command that sets some pointers on success for its success. -/
structure ComparisonSite.TestsSuccess (site : ComparisonSite) (trailers : Trailers)
    (contracts : Contracts) (pointers : PointerSet) : Prop where
  /-- The left operand ends in such a command. -/
  left_code : ∃ before command, site.left.code trailers .value = .ok (before ++ [command]) ∧
    command.SetsOnSuccess contracts pointers
  /-- The right operand is the push of zero or one. -/
  right_code : ∃ push, site.right.code trailers .value = .ok [push] ∧
    (push.isPushInt 0 = true ∨ push.isPushInt 1 = true)
  /-- The operands are compared as integers. -/
  integers : site.left.ty.stackType? = some .integer
  /-- They are compared for being equal or different. -/
  equality : site.comparison = .equals ∨ site.comparison = .notEquals

section Instructions

variable {contracts : Contracts}

/-- The pointers that a command sets only on success. -/
theorem Instruction.conditionalSet?_eq_some_iff {instruction : Instruction}
    {pointers : PointerSet} : instruction.conditionalSet? contracts = some pointers ↔
      instruction.SetsOnSuccess contracts pointers := by
  unfold conditionalSet? SetsOnSuccess
  split
  · next symbol hopcode hsymbol =>
    simp only [hopcode, hsymbol, Option.ite_none_right_eq_some, Bool.and_eq_true,
      Bool.not_eq_true', Option.some.injEq, Symbol.command.injEq, true_and]
    constructor
    · rintro ⟨⟨hconditional, hset⟩, rfl⟩
      exact ⟨symbol, rfl, hconditional, rfl, hset⟩
    · rintro ⟨_, rfl, hconditional, rfl, hset⟩
      exact ⟨⟨hconditional, hset⟩, rfl⟩
  · next hnone =>
    simp only [reduceCtorEq, false_iff]
    rintro ⟨hopcode, symbol, hsymbol, -⟩
    exact hnone symbol hopcode hsymbol

/-- The comparisons that tell success from failure. -/
theorem exists_branchesOnSuccess?_iff {push branch : Instruction} :
    (∃ onBranch, branchesOnSuccess? push branch = some onBranch) ↔
      (push.isPushInt 0 = true ∨ push.isPushInt 1 = true) ∧
        (branch.opcode = .branchEquals ∨ branch.opcode = .branchNot) := by
  unfold branchesOnSuccess?
  split
  · next hopcode =>
    cases push.isPushInt 0 <;> cases push.isPushInt 1 <;> simp [hopcode]
  · next hopcode =>
    cases push.isPushInt 0 <;> cases push.isPushInt 1 <;> simp [hopcode]
  · next hequals hnot =>
    simp only [reduceCtorEq, exists_false, false_iff, not_and, not_or]
    exact fun _ => ⟨hequals, hnot⟩

/-- Integers are compared for being equal or different by the branches of that name only. -/
theorem opcode_comparisonBranch_iff {comparison : Comparison} {ty : Ty} {label : Label}
    {span : Span} {branch : Instruction}
    (h : comparisonBranch comparison ty label span = .ok branch) :
    (branch.opcode = .branchEquals ∨ branch.opcode = .branchNot) ↔
      ty.stackType? = some .integer ∧ (comparison = .equals ∨ comparison = .notEquals) := by
  obtain ⟨opcode, hopcode, -, rfl⟩ := exists_opcode_of_comparisonBranch h
  obtain ⟨stack, hstack, hcomparison⟩ := Option.bind_eq_some_iff.mp hopcode
  rw [hstack]
  change (opcode = .branchEquals ∨ opcode = .branchNot) ↔ _
  cases comparison <;> cases stack <;> cases hcomparison <;> simp

end Instructions

namespace ComparisonSite

/-- The three instructions that end in the branch of a comparison, all in one block: the branch
after the last instruction of the right operand, and what comes before that. -/
structure Window (site : ComparisonSite) (trailers : Trailers) (script : CompiledScript)
    (position : Nat) (first second third : Location × Instruction) : Prop where
  getElem?_first : script.sequence[position]? = some first
  getElem?_second : script.sequence[position + 1]? = some second
  getElem?_third : script.sequence[position + 2]? = some third
  /-- The branch is not the last instruction. -/
  lt_length : position + 3 < script.sequence.length
  block_second : second.1.block = first.1.block
  block_third : third.1.block = second.1.block
  /-- Where the right operand pushes a constant integer last, that push is all of it, and the left
  operand ends before it. -/
  operands : ∃ before command earlier, site.left.code trailers .value = .ok (before ++ [command]) ∧
    site.right.code trailers .value = .ok (earlier ++ [second.2]) ∧
    (second.2.opcode = .pushConstantInt → earlier = []) ∧ (earlier = [] → first.2 = command)
  branch : ∃ label, comparisonBranch site.comparison site.left.ty label site.span = .ok third.2

variable {site : ComparisonSite} {trailers : Trailers} {script : CompiledScript}
  {contracts : Contracts}

/-- The branch of a comparison ends three instructions. -/
theorem EmittedAt.exists_window {branch : Nat} (h : site.EmittedAt trailers script branch) :
    ∃ position first second third, branch = position + 2 ∧
      site.Window trailers script position first second third := by
  cases h with
  | @intro left right branch onTrue onFalse start hleft hright hbranch hrun =>
    obtain ⟨before, command, rfl, -⟩ := Expr.endsInValue_code trailers site.left .value left hleft
    obtain ⟨earlier, last, rfl, hlast⟩ :=
      Expr.endsInValue_code trailers site.right .value right hright
    obtain ⟨block, index, hplaces⟩ := hrun
    -- both operands end in an instruction of their own, so three stand before the last branch
    have hsplit : before ++ [command] ++ (earlier ++ [last]) ++
        [branch, branchAlways onFalse site.span] =
          (before ++ command :: earlier) ++ [last, branch, branchAlways onFalse site.span] := by
      simp
    have hlength : (before ++ command :: earlier).length = before.length + earlier.length + 1 := by
      simp
      omega
    rw [hsplit] at hplaces
    have hfirst : ∃ previous, ((before ++ command :: earlier) ++ [last, branch,
        branchAlways onFalse site.span])[before.length + earlier.length]? = some previous ∧
          (earlier = [] → previous = command) := by
      rw [List.getElem?_append_left (by omega), List.getElem?_eq_getElem (by omega)]
      refine ⟨_, rfl, ?_⟩
      rintro rfl
      simp
    obtain ⟨previous, hprevious, hcommand⟩ := hfirst
    have hafter (offset : Nat) (instruction : Instruction)
        (hfound : [last, branch, branchAlways onFalse site.span][offset]? = some instruction) :
        script.sequence[start + (before.length + earlier.length) + (offset + 1)]? =
          some (⟨block, index + (before.length + earlier.length + 1 + offset)⟩, instruction) := by
      have hplace := hplaces (before.length + earlier.length + 1 + offset) instruction
      rw [List.getElem?_append_right (by omega), hlength, Nat.add_sub_cancel_left] at hplace
      rw [← hplace hfound]
      congr 1
      omega
    have hnext := (List.getElem?_eq_some_iff.mp (hafter 2 _ rfl)).1
    refine ⟨start + (before.length + earlier.length), _, _, _, ?_, hplaces _ _ hprevious,
      hafter 0 _ rfl, hafter 1 _ rfl, hnext, rfl, rfl,
      ⟨before, command, earlier, hleft, hright, hlast, hcommand⟩, ⟨onTrue, hbranch⟩⟩
    simp
    omega

namespace Window

variable {position : Nat} {first second third : Location × Instruction} {pointers : PointerSet}

/-- The outcome of a comparison is that of its three instructions. -/
theorem outcomeAt?_eq (h : site.Window trailers script position first second third)
    (contracts : Contracts) :
    script.outcomeAt? contracts (position + 2) =
      successOutcome? contracts first.2 second.2 third.2 := by
  ext success
  rw [CompiledScript.outcomeAt?_eq_some_iff]
  constructor
  · rintro ⟨other, command, push, branch, heq, hcommand, hpush, hbranch, hthree⟩
    obtain rfl : position = other := by omega
    cases h.getElem?_first.symm.trans hcommand
    cases h.getElem?_second.symm.trans hpush
    cases h.getElem?_third.symm.trans hbranch
    exact hthree
  · intro hthree
    exact ⟨position, first, second, third, rfl, h.getElem?_first, h.getElem?_second,
      h.getElem?_third, hthree⟩

/-- A comparison with a successful outcome tests a command for success. -/
theorem testsSuccess (h : site.Window trailers script position first second third)
    {success : SuccessOutcome}
    (hsuccess : successOutcome? contracts first.2 second.2 third.2 = some success) :
    site.TestsSuccess trailers contracts success.pointers := by
  obtain ⟨hset, hbranches⟩ := successOutcome?_eq_some_iff.mp hsuccess
  obtain ⟨before, command, earlier, hleft, hright, hpush, hcommand⟩ := h.operands
  obtain ⟨label, hbranch⟩ := h.branch
  obtain ⟨hconstant, hopcode⟩ := exists_branchesOnSuccess?_iff.mp ⟨_, hbranches⟩
  obtain ⟨hintegers, hequality⟩ := (opcode_comparisonBranch_iff hbranch).mp hopcode
  have hlast : second.2.opcode = .pushConstantInt := by
    rcases hconstant with hzero | hone
    · exact (Instruction.isPushInt_iff.mp hzero).1
    · exact (Instruction.isPushInt_iff.mp hone).1
  obtain rfl := hpush hlast
  refine ⟨⟨before, command, hleft, ?_⟩, ⟨second.2, hright, hconstant⟩, hintegers, hequality⟩
  rw [← hcommand rfl]
  exact Instruction.conditionalSet?_eq_some_iff.mp hset

/-- Where a comparison tests a command for success, the command is the first of its three
instructions and the push the second. -/
theorem operands_of_testsSuccess (h : site.Window trailers script position first second third)
    (htests : site.TestsSuccess trailers contracts pointers) :
    (∃ before, site.left.code trailers .value = .ok (before ++ [first.2])) ∧
      site.right.code trailers .value = .ok [second.2] := by
  obtain ⟨before, command, earlier, hleft, hright, -, hcommand⟩ := h.operands
  obtain ⟨push, hpush, -⟩ := htests.right_code
  have hsingle : earlier ++ [second.2] = [] ++ [push] := Except.ok.inj (hright.symm.trans hpush)
  obtain ⟨rfl, -⟩ := List.append_singleton_inj.mp hsingle
  exact ⟨⟨before, by rw [hcommand rfl]; exact hleft⟩, hright⟩

/-- A comparison that tests a command for success has a successful outcome. -/
theorem exists_successOutcome? (h : site.Window trailers script position first second third)
    (htests : site.TestsSuccess trailers contracts pointers) :
    ∃ onBranch, successOutcome? contracts first.2 second.2 third.2 =
      some ⟨pointers, onBranch⟩ := by
  obtain ⟨⟨before, hleft⟩, hright⟩ := h.operands_of_testsSuccess htests
  obtain ⟨label, hbranch⟩ := h.branch
  obtain ⟨⟨before', command, hleft', hset⟩, ⟨push, hright', hconstant⟩, hintegers, hequality⟩ :=
    htests
  rw [hleft, Except.ok.injEq] at hleft'
  obtain ⟨-, rfl⟩ := List.append_singleton_inj.mp hleft'
  cases hright.symm.trans hright'
  have hopcode := (opcode_comparisonBranch_iff hbranch).mpr ⟨hintegers, hequality⟩
  obtain ⟨onBranch, hbranches⟩ := exists_branchesOnSuccess?_iff.mpr ⟨hconstant, hopcode⟩
  exact ⟨onBranch, successOutcome?_eq_some_iff.mpr
    ⟨Instruction.conditionalSet?_eq_some_iff.mpr hset, hbranches⟩⟩

end Window

/-- What a flow graph shows of a comparison whose branch stands at a position. -/
structure ShownBy (site : ComparisonSite) (trailers : Trailers) (script : CompiledScript)
    (contracts : Contracts) (graph : FlowGraph) (branch : Nat) : Prop where
  /-- The branch was emitted for the comparison. -/
  emitted : site.EmittedAt trailers script branch
  /-- The branch has an outcome exactly if the comparison tests a command for success. -/
  exists_outcome_iff : ∀ pointers, (∃ outcome, graph.node outcome = .validated pointers ∧
    graph.Adjacent (branch + 1) outcome) ↔ site.TestsSuccess trailers contracts pointers
  /-- Every outcome of the branch stands for the success of the command that the left operand ends
  in. -/
  showsSuccess : ∀ outcome pointers, graph.node outcome = .validated pointers →
    graph.Adjacent (branch + 1) outcome → ∃ position before command push, branch = position + 2 ∧
      site.left.code trailers .value = .ok (before ++ [command]) ∧
      site.right.code trailers .value = .ok [push] ∧
      graph.ShowsSuccess script position command push outcome

/-- A flow graph shows a comparison of a script in which the labels of branches land. -/
theorem EmittedAt.shownBy {graph : FlowGraph} {branch : Nat}
    (h : site.EmittedAt trailers script branch)
    (hbuild : FlowGraph.build script contracts = .ok graph)
    (hlands : ∀ place ∈ script.sequence, place.2.opcode.isBranch = true →
      ∃ label target, place.2.label? = some label ∧ script.landing? label = some target) :
    site.ShownBy trailers script contracts graph branch := by
  obtain ⟨position, first, second, third, rfl, hwindow⟩ := h.exists_window
  have hthird : third.2.opcode.isBranch = true := by
    obtain ⟨label, hbranch⟩ := hwindow.branch
    exact (Bool.and_eq_true_iff.mp (isConditional_of_comparisonBranch hbranch)).1
  obtain ⟨label, target, hlabel, hlanding⟩ :=
    hlands third (List.mem_of_getElem? hwindow.getElem?_third) hthird
  have htests (outcome : Nat) (pointers : PointerSet)
      (hnode : graph.node outcome = .validated pointers)
      (hadjacent : graph.Adjacent (position + 2 + 1) outcome) :
      site.TestsSuccess trailers contracts pointers := by
    obtain ⟨other, success, hsuccess, rfl, hsource⟩ :=
      FlowGraph.exists_success_of_node hbuild hnode
    obtain rfl : position + 2 = other := Nat.succ.inj ((hsource _).mp hadjacent)
    rw [hwindow.outcomeAt?_eq] at hsuccess
    exact hwindow.testsSuccess hsuccess
  have hshows (pointers : PointerSet) (hsite : site.TestsSuccess trailers contracts pointers) :
      ∃ outcome, graph.node outcome = .validated pointers ∧
        graph.ShowsSuccess script position first.2 second.2 outcome := by
    obtain ⟨onBranch, hsuccess⟩ := hwindow.exists_successOutcome? hsite
    exact FlowGraph.exists_showsSuccess hbuild hwindow.getElem?_first hwindow.getElem?_second
      hwindow.getElem?_third hwindow.block_second hwindow.block_third hwindow.lt_length hlabel
      hlanding hsuccess
  refine ⟨h, fun pointers => ⟨?_, fun hsite => ?_⟩, fun outcome pointers hnode hadjacent => ?_⟩
  · rintro ⟨outcome, hnode, hadjacent⟩
    exact htests outcome pointers hnode hadjacent
  · obtain ⟨outcome, hnode, hsuccess⟩ := hshows pointers hsite
    exact ⟨outcome, hnode, (hsuccess.before_outcome _).mpr rfl⟩
  · have hsite := htests outcome pointers hnode hadjacent
    obtain ⟨⟨before, hleft⟩, hright⟩ := hwindow.operands_of_testsSuccess hsite
    obtain ⟨shown, -, hsuccess⟩ := hshows pointers hsite
    obtain rfl := hsuccess.eq_outcome outcome pointers hadjacent hnode
    exact ⟨position, before, first.2, second.2, rfl, hleft, hright, hsuccess⟩

end ComparisonSite

/-- What has a successful outcome is a conditional branch. -/
theorem CompiledScript.mem_conditionals_of_outcomeAt? {script : CompiledScript}
    {contracts : Contracts} {position : Nat} {success : SuccessOutcome}
    (h : script.outcomeAt? contracts position = some success) :
    position ∈ script.conditionals := by
  obtain ⟨place, hplace, hopcode⟩ := opcode_of_outcomeAt? h
  obtain ⟨hlt, rfl⟩ := List.getElem?_eq_some_iff.mp hplace
  refine List.mem_findIdxs_iff_exists_getElem_pos.mpr ⟨by simpa using hlt, ?_⟩
  rw [List.getElem_map]
  rcases hopcode with hopcode | hopcode
  · rw [hopcode]
    rfl
  · rw [hopcode]
    rfl

/-- Items that refer to nothing outside have a flow graph. -/
theorem CompiledScript.exists_build_of_refers {script : CompiledScript} {scope : Scope}
    {switches : List (Expr × List Case)}
    (h : Refers scope 0 script.items [] script.tables switches) (contracts : Contracts) :
    ∃ graph, FlowGraph.build script contracts = .ok graph := by
  obtain ⟨hbranches, hentries, hnumbers, hchoices, -⟩ := h
  simp only [boundLabels_items, codeOf_items, List.append_nil] at hbranches hentries hchoices
  refine exists_build_eq_ok hbranches (fun instruction hmem hswitch => ?_) contracts
  have hchosen : instruction.table? ∈ chosenTables script.instructions :=
    List.mem_map_of_mem (List.mem_filter.mpr ⟨hmem, by simpa using hswitch⟩)
  rw [hchoices] at hchosen
  obtain ⟨id, hid, htable⟩ := List.mem_map.mp hchosen
  cases hfound : script.table? id with
  | some table =>
    exact ⟨id, table, htable.symm, hfound, hentries table (List.mem_of_find?_eq_some hfound)⟩
  | none =>
    -- the number is that of a table, so one is found
    rw [← hnumbers] at hid
    obtain ⟨table, hmem, rfl⟩ := List.mem_map.mp hid
    simpa using List.find?_eq_none.mp hfound table hmem

namespace Generator

variable {generator : Generator} {decl : ScriptDecl} {script : CompiledScript}
  {trailers : Trailers}

/-- The last item of an emitted script is the return after its body. -/
theorem exists_items_eq (hhandlers : generator.handlers = trailers.handlers)
    (hrun : (generator.script decl).1 = .ok script) :
    ∃ before, script.items =
      before ++ [.code ({ opcode := .leave : Instruction }.atSpan decl.span)] := by
  obtain ⟨items, code, -, hleave, hitems, -⟩ := script_lays hhandlers hrun
  obtain ⟨pushes, last, -, hlast, rfl⟩ := StraightCode.append_eq_ok_iff.mp hleave
  cases hlast
  refine ⟨.bind .entry :: (items ++ pushes.map .code), ?_⟩
  rw [hitems]
  simp

/-- The label of every branch of an emitted script lands. -/
theorem exists_landing?_of_isBranch (hhandlers : generator.handlers = trailers.handlers)
    (hrun : (generator.script decl).1 = .ok script) {place : Location × Instruction}
    (hplace : place ∈ script.sequence) (hbranch : place.2.opcode.isBranch = true) :
    ∃ label target, place.2.label? = some label ∧ script.landing? label = some target := by
  obtain ⟨before, hends⟩ := exists_items_eq hhandlers hrun
  have hmem : place.2 ∈ codeOf script.items := by
    rw [CompiledScript.codeOf_items]
    exact CompiledScript.mem_instructions_of_mem_sequence hplace
  obtain ⟨label, hbound, hlabel⟩ :=
    (refers_script hhandlers hrun).branches place.2 hmem hbranch
  rw [List.append_nil] at hbound
  obtain ⟨target, htarget⟩ := CompiledScript.exists_landing? hends rfl hbound
  exact ⟨label, target, hlabel, htarget⟩

/-- The flow graph of an emitted script has outcomes for exactly the comparisons that test a command
for success, and control passes each exactly when the command succeeds. -/
theorem script_outcomes_on_success (hhandlers : generator.handlers = trailers.handlers)
    (hrun : (generator.script decl).1 = .ok script) (contracts : Contracts) :
    ∃ graph, FlowGraph.build script contracts = .ok graph ∧
      List.Forall₂ (fun branch site => site.ShownBy trailers script contracts graph branch)
        script.conditionals (Stmt.comparisonsOf decl.body) ∧
      ∀ outcome pointers, graph.node outcome = .validated pointers →
        ∃ branch ∈ script.conditionals,
          ∀ source, graph.Adjacent source outcome ↔ source = branch + 1 := by
  obtain ⟨graph, hbuild⟩ :=
    CompiledScript.exists_build_of_refers (refers_script hhandlers hrun) contracts
  refine ⟨graph, hbuild, ?_, fun outcome pointers hnode => ?_⟩
  · refine (forall₂_conditionals hhandlers hrun).imp fun branch site hemitted => ?_
    exact hemitted.shownBy hbuild fun place => exists_landing?_of_isBranch hhandlers hrun
  · obtain ⟨branch, success, hsuccess, -, hsource⟩ :=
      FlowGraph.exists_success_of_node hbuild hnode
    exact ⟨branch, CompiledScript.mem_conditionals_of_outcomeAt? hsuccess, hsource⟩

/-- The comparison of what a search for one player returns with zero. -/
private def foundSomeone : ComparisonSite where
  left := .call ⟨.command, "find", false, .int, some (.command ⟨"find", [.int], [.int]⟩), .unknown⟩
    [.literal (.int 1) .int none .unknown]
  comparison := .notEquals
  right := .literal (.int 0) .int none .unknown
  span := .unknown

/-- A script that searches for a player and greets the one it finds. -/
private def findAndGreet : ScriptDecl :=
  let hello : Expr := .literal (.string "hello") .string none .unknown
  let greet : CallHead :=
    ⟨.command, "greet", false, .unit, some (.command ⟨"greet", [], []⟩), .unknown⟩
  let test : Expr := .condition foundSomeone.left (.compare .notEquals) foundSomeone.right .unknown
  ⟨⟨.proc, "welcome", [], []⟩, [], [.ifThen test (.evaluate (.call greet [hello]) .unknown)
    .unknown], .unknown⟩

/-- A generator with a trailer for the greeting. -/
private def greetGenerator : Generator := { handlers := ⟨[("greet", .argumentTrailer 0)]⟩ }

/-- The contract of the search. -/
private def greetContracts : Contracts := ⟨[("find", { set := ⟨1⟩, conditional := true })]⟩

private theorem testsSuccess_foundSomeone :
    foundSomeone.TestsSuccess [("greet", 0)] greetContracts ⟨1⟩ where
  left_code := ⟨[_], _, rfl, rfl, _, rfl, rfl, rfl, rfl⟩
  right_code := ⟨_, rfl, .inl rfl⟩
  integers := rfl
  equality := .inr rfl

theorem script_outcomes_on_success_findAndGreet :
    ∃ script graph branch outcome position command push,
      (greetGenerator.script findAndGreet).1 = .ok script ∧
      FlowGraph.build script greetContracts = .ok graph ∧ script.conditionals = [branch] ∧
      branch = position + 2 ∧ graph.node outcome = .validated ⟨1⟩ ∧
      graph.ShowsSuccess script position command push outcome := by
  have hhandlers : greetGenerator.handlers = Trailers.handlers [("greet", 0)] := rfl
  obtain ⟨script, hscript⟩ :=
    exists_script_of_isOk (show (greetGenerator.script findAndGreet).1.isOk = true by
      decide +kernel)
  obtain ⟨graph, hbuild, hshown, -⟩ :=
    script_outcomes_on_success hhandlers hscript greetContracts
  have hsites : Stmt.comparisonsOf findAndGreet.body = [foundSomeone] := rfl
  rw [hsites, List.forall₂_cons_right_iff] at hshown
  obtain ⟨branch, rest, hsite, hrest, hconditionals⟩ := hshown
  cases hrest
  obtain ⟨outcome, hnode, hadjacent⟩ :=
    (hsite.exists_outcome_iff ⟨1⟩).mpr testsSuccess_foundSomeone
  obtain ⟨position, -, command, push, hposition, -, -, hshows⟩ :=
    hsite.showsSuccess outcome ⟨1⟩ hnode hadjacent
  exact ⟨script, graph, branch, outcome, position, command, push, hscript, hbuild, hconditionals,
    hposition, hnode, hshows⟩

end Generator

end ScriptBackend

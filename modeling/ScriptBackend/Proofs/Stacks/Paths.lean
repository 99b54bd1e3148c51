import Mathlib.Logic.Relation
import ScriptBackend.Proofs.Lowering.WellFormed
import ScriptBackend.Proofs.Semantics.Flat
import ScriptBackend.Proofs.Stacks.Statements

/-!
# Paths through a script

On every path through an emitted script, whatever comparisons and switches decide, each instruction
finds its operands on the stacks. The heights depend on the place alone and not on the path that
leads there: at the start of a block all stacks are empty, at a return they hold the returns of the
script, and at a jump the arguments. No path gets stuck or runs off the end.
-/

namespace ScriptBackend

/-- A place on a path with the heights of the stacks there. -/
structure StackState where
  /-- The position of the instruction that comes next. -/
  position : Nat
  /-- The heights before it. -/
  heights : Heights

namespace CompiledScript

/-- Whether control may go from the instruction at a position to another position: to the next one
unless the instruction is terminal, to the label of a branch, and to any case of a switch. -/
inductive Leads (script : CompiledScript) (position : Nat) (instruction : Instruction) :
    Nat → Prop where
  | next (hterminal : instruction.opcode.isTerminal = false) :
      Leads script position instruction (position + 1)
  | branch {label : Label} {target : Nat} (hbranch : instruction.opcode.isBranch = true)
      (hlabel : instruction.label? = some label) (htarget : script.offset? label = some target) :
      Leads script position instruction target
  | choice {table : SwitchTable} {entry : TableCase} {target : Nat}
      (hswitch : instruction.opcode = .switch)
      (htable : instruction.table?.bind script.table? = some table) (hentry : entry ∈ table.cases)
      (htarget : script.offset? entry.label = some target) :
      Leads script position instruction target

/-- One step along a path. -/
inductive StackStep (script : CompiledScript) (subjects : Nat → Option StackType) :
    StackState → StackState → Prop where
  | mk {position target : Nat} {heights : Heights} {instruction : Instruction}
      {effect : StackEffect} (hinstruction : script.instructions[position]? = some instruction)
      (heffect : instruction.effect? subjects = some effect)
      (hholds : heights.Holds effect.pops)
      (hleads : script.Leads position instruction target) :
      StackStep script subjects ⟨position, heights⟩ ⟨target, effect.apply heights⟩

/-- Whether a path leads from the entry, with empty stacks, to a state. -/
def ComesTo (script : CompiledScript) (subjects : Nat → Option StackType) (state : StackState) :
    Prop :=
  ∃ start, script.offset? .entry = some start ∧
    Relation.ReflTransGen (script.StackStep subjects) ⟨start, .empty⟩ state

/-- What holds of the stacks on all paths through a script with some returns. -/
structure StackSafe (script : CompiledScript) (subjects : Nat → Option StackType)
    (returns : List Ty) : Prop where
  /-- Paths start somewhere. -/
  entry : ∃ start, script.offset? .entry = some start
  /-- Every path comes to instructions only, and these find what they need on the stacks. -/
  safe : ∀ state, script.ComesTo subjects state → ∃ instruction,
    script.instructions[state.position]? = some instruction ∧
      instruction.SafeAt subjects returns state.heights
  /-- A path that has not left the script goes on. -/
  goesOn : ∀ state, script.ComesTo subjects state → ∀ instruction,
    script.instructions[state.position]? = some instruction → instruction.opcode.isExit = false →
      ∃ next, script.StackStep subjects state next
  /-- The heights depend on the place alone. -/
  heights_eq : ∀ state other, script.ComesTo subjects state → script.ComesTo subjects other →
    state.position = other.position → state.heights = other.heights
  /-- All stacks are empty at the start of every block. -/
  empty_of_start : ∀ state, script.ComesTo subjects state → ∀ index < script.blocks.length,
    state.position = ((script.blocks.take index).flatMap Block.instructions).length →
      state.heights = .empty

variable {script : CompiledScript} {subjects : Nat → Option StackType} {returns : List Ty}

/-- Whether a state is at an instruction with the heights that the listing above it tells. -/
def Stands (script : CompiledScript) (subjects : Nat → Option StackType) (state : StackState) :
    Prop :=
  ∃ before instruction after, script.items = before ++ .code instruction :: after ∧
    state.position = (codeOf before).length ∧ scan subjects none before = some state.heights

/-- Whether a listing is checked and control never runs off its end. -/
structure IsChecked (script : CompiledScript) (subjects : Nat → Option StackType)
    (returns : List Ty) : Prop where
  checked : Checked subjects returns none script.items
  scan_eq : scan subjects none script.items = none
  branches : ∀ instruction ∈ script.instructions, instruction.opcode.isBranch = true →
    ∃ label ∈ boundLabels script.items, instruction.label? = some label

/-- Where the heights below a part of a checked listing are known, an instruction follows at which
they are the same. -/
theorem IsChecked.stands_of_split (h : script.IsChecked subjects returns) {before after : List Item}
    {heights : Heights} (hitems : script.items = before ++ after)
    (hscan : scan subjects none before = some heights) :
    script.Stands subjects ⟨(codeOf before).length, heights⟩ := by
  induction after generalizing before heights with
  | nil =>
    have hnone := h.scan_eq
    rw [hitems, List.append_nil, hscan] at hnone
    cases hnone
  | cons item rest ih =>
    cases item with
    | code instruction => exact ⟨before, instruction, rest, hitems, rfl, hscan⟩
    | bind label =>
      -- the stacks are empty above a label, and so they are below it
      have hchecked := h.checked
      rw [hitems, checked_append, hscan, Checked] at hchecked
      obtain rfl := hchecked.2.1 heights rfl
      have hstands := @ih (before ++ [.bind label]) .empty (by simp [hitems]) (by
        rw [scan_append, hscan]
        rfl)
      simpa using hstands

/-- A state at a label has empty stacks. -/
theorem IsChecked.stands_of_bind (h : script.IsChecked subjects returns) {before after : List Item}
    {label : Label} (hitems : script.items = before ++ .bind label :: after) :
    script.Stands subjects ⟨(codeOf before).length, .empty⟩ := by
  have hstands := @stands_of_split _ _ _ h (before ++ [.bind label]) after .empty
    (by simp [hitems]) (by rw [scan_append]; rfl)
  simpa using hstands

/-- A state where a label leads has empty stacks. -/
theorem IsChecked.stands_of_offset? (h : script.IsChecked subjects returns) {label : Label}
    {target : Nat} (htarget : script.offset? label = some target) :
    script.Stands subjects ⟨target, .empty⟩ := by
  obtain ⟨before, after, hitems, -, rfl⟩ := exists_split_of_offset? htarget
  exact h.stands_of_bind hitems

/-- The instruction of a state in a checked listing is safe. -/
theorem IsChecked.exists_safeAt (h : script.IsChecked subjects returns) {state : StackState}
    (hstands : script.Stands subjects state) : ∃ instruction,
      script.instructions[state.position]? = some instruction ∧
        instruction.SafeAt subjects returns state.heights := by
  obtain ⟨before, instruction, after, hitems, hposition, hscan⟩ := hstands
  have hchecked := h.checked
  rw [hitems, checked_append, hscan, Checked] at hchecked
  refine ⟨instruction, ?_, hchecked.2.1 _ rfl⟩
  rw [hposition]
  exact getElem?_instructions hitems

/-- The listing tells the heights after an instruction that control can come from. -/
theorem IsChecked.stands_next (h : script.IsChecked subjects returns) {position : Nat}
    {heights : Heights} (hstands : script.Stands subjects ⟨position, heights⟩)
    {instruction : Instruction} (hinstruction : script.instructions[position]? = some instruction)
    {effect : StackEffect} (heffect : instruction.effect? subjects = some effect)
    (hterminal : instruction.opcode.isTerminal = false) :
    script.Stands subjects ⟨position + 1, effect.apply heights⟩ := by
  obtain ⟨before, found, after, hitems, rfl, hscan⟩ := hstands
  rw [getElem?_instructions hitems] at hinstruction
  cases hinstruction
  have hbelow : scan subjects none (before ++ [.code instruction]) =
      some (effect.apply heights) := by
    rw [scan_append, hscan]
    change instruction.below? subjects heights = _
    rw [Instruction.below?, hterminal, heffect]
    rfl
  have hsplit : script.items = (before ++ [.code instruction]) ++ after := by simp [hitems]
  simpa using h.stands_of_split hsplit hbelow

/-- A step leads from a state whose heights the listing tells to another such state. -/
theorem IsChecked.stands_of_step (h : script.IsChecked subjects returns) {state next : StackState}
    (hstands : script.Stands subjects state) (hstep : script.StackStep subjects state next) :
    script.Stands subjects next := by
  obtain ⟨hinstruction, heffect, -, hleads⟩ := hstep
  obtain ⟨found, hfound, hsafe⟩ := h.exists_safeAt hstands
  rw [hinstruction] at hfound
  cases hfound
  obtain ⟨effect, heffect', -, hempty⟩ := hsafe.operands
  rw [heffect] at heffect'
  cases heffect'
  cases hleads with
  | branch hbranch _ htarget =>
    rw [hempty (.inl hbranch)]
    exact h.stands_of_offset? htarget
  | choice hswitch _ _ htarget =>
    rw [hempty (.inr hswitch)]
    exact h.stands_of_offset? htarget
  | next hterminal => exact h.stands_next hstands hinstruction heffect hterminal

/-- Every path leads to states whose heights the listing tells. -/
theorem IsChecked.stands_of_comesTo (h : script.IsChecked subjects returns) {state : StackState}
    (hcomes : script.ComesTo subjects state) : script.Stands subjects state := by
  obtain ⟨start, hstart, hpath⟩ := hcomes
  induction hpath with
  | refl => exact h.stands_of_offset? hstart
  | tail _ hstep ih => exact h.stands_of_step ih hstep

/-- An instruction is found in a list of items by the number of instructions before it. -/
theorem eq_of_split {before before' after after' : List Item}
    {instruction instruction' : Instruction}
    (h : before ++ .code instruction :: after = before' ++ .code instruction' :: after')
    (hcount : (codeOf before).length = (codeOf before').length) : before = before' := by
  induction before generalizing before' with
  | nil =>
    cases before' with
    | nil => rfl
    | cons item rest =>
      rw [List.nil_append, List.cons_append, List.cons.injEq] at h
      rw [← h.1] at hcount
      cases hcount
  | cons item rest ih =>
    cases before' with
    | nil =>
      rw [List.nil_append, List.cons_append, List.cons.injEq] at h
      rw [h.1] at hcount
      cases hcount
    | cons item' rest' =>
      rw [List.cons_append, List.cons_append, List.cons.injEq] at h
      obtain ⟨rfl, htail⟩ := h
      rw [ih htail]
      cases item with
      | bind label => exact hcount
      | code instruction => exact Nat.succ.inj hcount

/-- The listing tells one height for each place. -/
theorem Stands.heights_eq {state other : StackState} (hstate : script.Stands subjects state)
    (hother : script.Stands subjects other) (hposition : state.position = other.position) :
    state.heights = other.heights := by
  obtain ⟨before, instruction, after, hitems, hcount, hscan⟩ := hstate
  obtain ⟨before', instruction', after', hitems', hcount', hscan'⟩ := hother
  rw [hitems] at hitems'
  obtain rfl := eq_of_split hitems' (by rw [← hcount, ← hcount', hposition])
  rw [hscan] at hscan'
  exact Option.some.inj hscan'

/-- A terminal operation that does not end a run is a branch. -/
theorem isBranch_of_isTerminal {opcode : Opcode} (hterminal : opcode.isTerminal = true)
    (hexit : opcode.isExit = false) : opcode.isBranch = true := by
  unfold Opcode.isTerminal at hterminal
  split at hterminal
  · rfl
  · exact absurd hexit (by decide)
  · exact absurd hexit (by decide)
  · cases hterminal

/-- The items of a layout around the label of one of its blocks. -/
theorem items_eq_of_lt {index : Nat} (h : index < script.blocks.length) :
    ∃ label after, script.items =
      itemsOf (script.blocks.take index) ++ .bind label :: after := by
  obtain ⟨block, hblock⟩ : ∃ block,
      script.blocks.drop index = block :: script.blocks.drop (index + 1) :=
    ⟨_, List.drop_eq_getElem_cons h⟩
  refine ⟨block.label, block.instructions.map .code ++ itemsOf (script.blocks.drop (index + 1)), ?_⟩
  calc script.items
      = itemsOf (script.blocks.take index ++ script.blocks.drop index) := by
        rw [List.take_append_drop]
        rfl
    _ = itemsOf (script.blocks.take index) ++ itemsOf (script.blocks.drop index) :=
        List.flatMap_append
    _ = _ := by
        rw [hblock, itemsOf_cons]
        rfl

/-- A script whose listing is checked is safe on all paths. -/
theorem IsChecked.stackSafe (h : script.IsChecked subjects returns)
    (hentry : .entry ∈ boundLabels script.items) : script.StackSafe subjects returns where
  entry := exists_offset?_iff.mpr hentry
  safe := fun _ hcomes => h.exists_safeAt (h.stands_of_comesTo hcomes)
  goesOn := by
    rintro ⟨position, heights⟩ hcomes instruction hinstruction hexit
    obtain ⟨found, hfound, hsafe⟩ := h.exists_safeAt (h.stands_of_comesTo hcomes)
    rw [hinstruction] at hfound
    cases hfound
    obtain ⟨effect, heffect, hholds, -⟩ := hsafe.operands
    suffices hleads : ∃ target, script.Leads position instruction target by
      obtain ⟨target, hleads⟩ := hleads
      exact ⟨_, .mk hinstruction heffect hholds hleads⟩
    cases hterminal : instruction.opcode.isTerminal with
    | false => exact ⟨_, .next hterminal⟩
    | true =>
      have hbranch : instruction.opcode.isBranch = true :=
        isBranch_of_isTerminal hterminal hexit
      obtain ⟨label, hbound, hlabel⟩ := h.branches instruction
        (List.mem_of_getElem? hinstruction) hbranch
      obtain ⟨target, htarget⟩ := exists_offset?_iff.mpr hbound
      exact ⟨target, .branch hbranch hlabel htarget⟩
  heights_eq := fun _ _ hstate hother hposition =>
    (h.stands_of_comesTo hstate).heights_eq (h.stands_of_comesTo hother) hposition
  empty_of_start := by
    intro state hcomes index hlt hposition
    obtain ⟨label, after, hitems⟩ := items_eq_of_lt hlt
    have hstart := h.stands_of_bind hitems
    rw [codeOf_itemsOf, ← hposition] at hstart
    exact (h.stands_of_comesTo hcomes).heights_eq hstart rfl

end CompiledScript

/-- The stack of the subject of a switch of a declaration, by its number among all switches. -/
def ScriptDecl.subjectStack? (decl : ScriptDecl) (number : Nat) : Option StackType :=
  ((Stmt.switchesOf decl.body)[number]?).bind fun (subject, _) => subject.stack?

namespace Generator

variable {generator : Generator} {decl : ScriptDecl} {script : CompiledScript}

/-- The listing of a script that was emitted for a well-typed declaration is checked. -/
theorem isChecked_script (hhandlers : generator.handlers = Trailers.handlers [])
    (htyped : decl.IsTyped) (hrun : (generator.script decl).1 = .ok script) :
    script.IsChecked decl.subjectStack? decl.symbol.returns := by
  obtain ⟨items, code, hbody, hleave, hitems, -⟩ := script_lays hhandlers hrun
  have htells : TellsSubjects decl.subjectStack? 0 (Stmt.switchesOf decl.body) := by
    intro number subject cases hfound
    rw [Nat.zero_add, ScriptDecl.subjectStack?, hfound]
    rfl
  obtain ⟨pushes, last, hpushes, hlast, rfl⟩ := StraightCode.append_eq_ok_iff.mp hleave
  cases hlast
  have hsettled : Settles decl.subjectStack? decl.symbol.returns script.items := by
    rw [hitems]
    exact (Settles.bind .entry).append ((hbody.settles htyped htells).append
      (.of_runs_control (runs_defaults hpushes .empty) (safeAt_leave decl.span) rfl))
  refine ⟨(hsettled none isLevel_none).1, ?_, ?_⟩
  · -- the last instruction leaves
    rw [hitems, List.map_append, ← List.append_assoc, ← List.cons_append, scan_append]
    exact Option.bind_fun_none _
  · have hrefers := (refers_script hhandlers hrun).branches
    simpa using hrefers

/-- Emitted code is stack-safe. -/
theorem script_stackSafe (hhandlers : generator.handlers.entries = []) (htyped : decl.IsTyped)
    (hrun : (generator.script decl).1 = .ok script) :
    script.StackSafe decl.subjectStack? decl.symbol.returns := by
  have hnone : generator.handlers = Trailers.handlers [] := congrArg Handlers.mk hhandlers
  obtain ⟨items, code, -, -, hitems, -⟩ := script_lays hnone hrun
  exact (isChecked_script hnone htyped hrun).stackSafe (by rw [hitems]; simp)

/-- A script that stores what a command returns into an element and a string, tests in a loop, and
chooses between a jump and a return. -/
private def storeAndJump : ScriptDecl :=
  let one : Expr := .literal (.int 1) .int none .unknown
  let numbers : LocalSymbol := ⟨"numbers", .array .int⟩
  let text : LocalSymbol := ⟨"text", .string⟩
  let read : CommandSymbol := ⟨"read", [.int], [.int, .string]⟩
  let next : ScriptSymbol := ⟨.label, "next", [.int, .string], []⟩
  let nameOf : Expr := .localVar "text" .string (some (.localVar text)) .unknown
  let test : Expr := .condition one (.compare .lessThan) one .unknown
  ⟨⟨.proc, "fetch", [], [.int, .long]⟩, [],
    [.declareArray "numbers" (.array .int) (some (.localVar numbers)) one .unknown,
      .declare "text" .string (some (.localVar text)) none .unknown,
      .assign [.element "numbers" one .int (some (.localVar numbers)) .unknown, nameOf]
        [.call ⟨.command, "read", false, .unit, some (.command read), .unknown⟩ [one]] .unknown,
      .whileLoop test (.switch .string nameOf
        [.mk [] true [.evaluate (.call ⟨.jump, "next", false, .unit, some (.script next), .unknown⟩
          [one, .joined [nameOf, nameOf] .unknown]) .unknown] .unknown,
          .mk [] false [.leave [one, .literal .null .long none .unknown] .unknown] .unknown]
        .unknown) .unknown], .unknown⟩

private theorem isTyped_storeAndJump : storeAndJump.IsTyped := by
  have hone : (Expr.literal (.int 1) .int none .unknown).Yields [.integer] := .literal rfl rfl
  have hnull : (Expr.literal .null .long none .unknown).Yields [.long] := .literal rfl rfl
  have hname : (Expr.localVar "text" .string (some (.localVar ⟨"text", .string⟩)) .unknown).Yields
      [.string] := .localVar rfl rfl
  have hread : (Expr.call ⟨.command, "read", false, .unit,
      some (.command ⟨"read", [.int], [.int, .string]⟩), .unknown⟩ [.literal (.int 1) .int none
        .unknown]).Yields [.integer, .string] :=
    @Expr.Yields.call _ _ [.int] [.int, .string] rfl (.cons hone .nil)
  have hjoined := @Expr.Yields.joined [_, _] .unknown (.cons hname (.cons hname .nil))
  simp only [ScriptDecl.IsTyped, storeAndJump, List.forall_mem_cons, List.not_mem_nil,
    IsEmpty.forall_iff, implies_true, and_true]
  refine ⟨.declareArray hone, .declare rfl rfl nofun,
    .assign (.cons (.element rfl hone) (.cons (.localVar rfl) .nil)) (.cons hread .nil),
    .whileLoop (.compare rfl hone hone) (.switch hname ?_)⟩
  simp only [Case.body, List.forall_mem_cons, List.not_mem_nil, IsEmpty.forall_iff, implies_true,
    and_true]
  exact ⟨.jump (.call rfl rfl (.cons hone (.cons hjoined .nil))),
    .leave (.cons hone (.cons hnull .nil))⟩

theorem script_stackSafe_storeAndJump :
    ∃ script, (({} : Generator).script storeAndJump).1 = .ok script ∧
      script.StackSafe storeAndJump.subjectStack? [.int, .long] := by
  obtain ⟨script, hscript⟩ :=
    exists_script_of_isOk (show (({} : Generator).script storeAndJump).1.isOk = true by
      decide +kernel)
  exact ⟨script, hscript, script_stackSafe rfl isTyped_storeAndJump hscript⟩

end Generator

end ScriptBackend

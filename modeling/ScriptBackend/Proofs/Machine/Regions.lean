import Mathlib.Logic.Function.Iterate
import ScriptBackend.Proofs.Emitter.Items
import ScriptBackend.Proofs.Machine.Engine

/-!
# Running a part of a script

A region is a part of a layout that the machine runs by itself. Control goes from one instruction to
the next. A branch to a label that is bound in the region goes there, and a branch to any other
label leaves the region. Control may also fall out of the region's end, or get stuck where an
instruction lacks its operands or ends the script. A run remembers the instructions that it ran.
-/

namespace ScriptBackend

/-- How a comparison of two numbers comes out. -/
def Comparison.holds {α : Type} [DecidableEq α] [LT α] [LE α] [DecidableLT α] [DecidableLE α] :
    Comparison → α → α → Bool
  | .equals, left, right => left = right
  | .notEquals, left, right => left ≠ right
  | .lessThan, left, right => left < right
  | .greaterThan, left, right => left > right
  | .lessThanOrEquals, left, right => left ≤ right
  | .greaterThanOrEquals, left, right => left ≥ right

/-- How a comparison of two values of one stack comes out; strings can only be told equal or
different. -/
def Comparison.compare? : Comparison → List Value → Option Bool
  | comparison, [.integer left, .integer right] => some (comparison.holds left right)
  | comparison, [.long left, .long right] => some (comparison.holds left right)
  | .equals, [.string left, .string right] => some (left = right)
  | .notEquals, [.string left, .string right] => some (left ≠ right)
  | _, _ => none

/-- The comparison that a conditional branch makes, and the stack of what it compares. -/
def Opcode.comparison? : Opcode → Option (Comparison × StackType)
  | .branchEquals => some (.equals, .integer)
  | .branchNot => some (.notEquals, .integer)
  | .branchLessThan => some (.lessThan, .integer)
  | .branchGreaterThan => some (.greaterThan, .integer)
  | .branchLessThanOrEquals => some (.lessThanOrEquals, .integer)
  | .branchGreaterThanOrEquals => some (.greaterThanOrEquals, .integer)
  | .longBranchEquals => some (.equals, .long)
  | .longBranchNot => some (.notEquals, .long)
  | .longBranchLessThan => some (.lessThan, .long)
  | .longBranchGreaterThan => some (.greaterThan, .long)
  | .longBranchLessThanOrEquals => some (.lessThanOrEquals, .long)
  | .longBranchGreaterThanOrEquals => some (.greaterThanOrEquals, .long)
  | .objBranchEquals => some (.equals, .string)
  | .objBranchNot => some (.notEquals, .string)
  | _ => none

/-- A conditional branch need not continue with the next instruction. -/
theorem Opcode.goesOn_of_comparison? {opcode : Opcode} {made : Comparison × StackType}
    (h : opcode.comparison? = some made) : opcode.goesOn = false := by
  cases opcode <;> first | rfl | cases h

/-- The branch that is chosen for a comparison makes it. -/
theorem Comparison.comparison?_of_branch? {comparison : Comparison} {stack : StackType}
    {opcode : Opcode} (h : comparison.branch? stack = some opcode) :
    opcode.comparison? = some (comparison, stack) := by
  cases comparison <;> cases stack <;> cases h <;> rfl

/-- A comparison that there is a branch for comes out on all values of its stack. -/
theorem Comparison.exists_compare? {comparison : Comparison} {stack : StackType} {opcode : Opcode}
    (h : comparison.branch? stack = some opcode) {values : List Value}
    (hvalues : values.map Value.stack = [stack, stack]) :
    ∃ holds, comparison.compare? values = some holds := by
  obtain ⟨left, right, rfl, hleft, hright⟩ := exists_pair_of_stacks hvalues
  cases stack with
  | integer =>
    cases left <;> cases hleft
    cases right <;> cases hright
    cases comparison <;> exact ⟨_, rfl⟩
  | long =>
    cases left <;> cases hleft
    cases right <;> cases hright
    cases comparison <;> exact ⟨_, rfl⟩
  | string =>
    cases left <;> cases hleft
    cases right <;> cases hright
    cases comparison <;> cases h <;> exact ⟨_, rfl⟩

/-- The number of instructions before the last item that binds a label. -/
def placeOf? (label : Label) : List Item → Option Nat
  | [] => none
  | .code _ :: rest => (placeOf? label rest).map (· + 1)
  | .bind bound :: rest =>
    match placeOf? label rest with
    | some place => some place
    | none => if bound = label then some 0 else none

/-- A label that is not bound has no place. -/
theorem placeOf?_eq_none {label : Label} {items : List Item} (h : label ∉ boundLabels items) :
    placeOf? label items = none := by
  induction items with
  | nil => rfl
  | cons item rest ih =>
    cases item with
    | code instruction => rw [placeOf?, ih h, Option.map_none]
    | bind bound =>
      rw [boundLabels_bind_cons, List.mem_cons, not_or] at h
      rw [placeOf?, ih h.2]
      exact if_neg (Ne.symm h.1)

/-- A label has its place where it is bound last. -/
theorem placeOf?_of_split {label : Label} (before : List Item) {after : List Item}
    (h : label ∉ boundLabels after) :
    placeOf? label (before ++ .bind label :: after) = some (codeOf before).length := by
  induction before with
  | nil => simp [placeOf?, placeOf?_eq_none h]
  | cons item rest ih =>
    cases item with
    | code instruction => rw [List.cons_append, placeOf?, ih, Option.map_some]; rfl
    | bind bound => rw [List.cons_append, placeOf?, ih]; rfl

variable {World : Type}

/-- A state of a run of a region, with the instructions that were run. -/
inductive RegionState (World : Type) where
  /-- The instruction at a position comes next. -/
  | running (position : Nat) (machine : MachineState World) (ran : List Instruction)
  /-- A branch led to a label outside the region. -/
  | left (label : Label) (machine : MachineState World) (ran : List Instruction)
  /-- Control ran off the end of the region. -/
  | fellOut (machine : MachineState World) (ran : List Instruction)
  /-- There is no next state. -/
  | stuck

namespace Region

/-- Go to a label, which may be outside the region. -/
def goTo (region : List Item) (label : Label) (machine : MachineState World)
    (ran : List Instruction) : RegionState World :=
  match placeOf? label region with
  | some position => .running position machine ran
  | none => .left label machine ran

/-- Compare the two topmost values of a stack; they are taken off. -/
def compareTop? (comparison : Comparison) (stack : StackType) (base : Stacks) :
    Option (Bool × Stacks) :=
  (base.popAll [stack, stack]).bind fun (values, below) =>
    (comparison.compare? values).map fun holds => (holds, below)

/-- Run the instruction at a position. -/
def runInstruction (engine : Engine World) (region : List Item) (position : Nat)
    (machine : MachineState World) (ran : List Instruction) (instruction : Instruction) :
    RegionState World :=
  let after := ran ++ [instruction]
  if instruction.opcode = .branch then
    match instruction.label? with
    | some label => goTo region label machine after
    | none => .stuck
  else
    match instruction.opcode.comparison? with
    | some (comparison, stack) =>
      match instruction.label?, compareTop? comparison stack machine.values with
      | some label, some (true, below) => goTo region label ⟨below, machine.world⟩ after
      | some _, some (false, below) => .running (position + 1) ⟨below, machine.world⟩ after
      | _, _ => .stuck
    | none =>
      match instruction.perform engine machine with
      | some next => .running (position + 1) next after
      | none => .stuck

/-- One step of a run; a run that is over stays as it is. -/
def step (engine : Engine World) (region : List Item) : RegionState World → RegionState World
  | .running position machine ran =>
    match (codeOf region)[position]? with
    | some instruction => runInstruction engine region position machine ran instruction
    | none => .fellOut machine ran
  | .left label machine ran => .left label machine ran
  | .fellOut machine ran => .fellOut machine ran
  | .stuck => .stuck

/-- Whether some steps lead from one state to another. -/
def Reaches (engine : Engine World) (region : List Item) (start final : RegionState World) : Prop :=
  ∃ steps, (step engine region)^[steps] start = final

/-- Whether a run leaves the region for a label: after some steps it is there, and at every other
time it is inside the region. -/
structure Leaves (engine : Engine World) (region : List Item) (start : RegionState World)
    (label : Label) (machine : MachineState World) (ran : List Instruction) : Prop where
  /-- The run gets to the label. -/
  reaches : Reaches engine region start (.left label machine ran)
  /-- The run is never anywhere but inside or at the label. -/
  inside : ∀ steps, (∃ position machine ran,
      (step engine region)^[steps] start = .running position machine ran) ∨
    (step engine region)^[steps] start = .left label machine ran

variable {engine : Engine World} {region : List Item} {start middle final : RegionState World}

namespace Reaches

/-- Steps followed by steps. -/
theorem trans (hfirst : Reaches engine region start middle)
    (hsecond : Reaches engine region middle final) : Reaches engine region start final := by
  obtain ⟨before, rfl⟩ := hfirst
  obtain ⟨after, rfl⟩ := hsecond
  exact ⟨after + before, Function.iterate_add_apply _ after before start⟩

/-- A run that is over never was anywhere else but inside the region. -/
theorem running_or_eq (h : Reaches engine region start final)
    (hover : step engine region final = final) (steps : Nat) :
    (∃ position machine ran, (step engine region)^[steps] start = .running position machine ran) ∨
      (step engine region)^[steps] start = final := by
  obtain ⟨last, rfl⟩ := h
  -- a state that is not running stays, so it is the one that the run ends in
  have hstays : ∀ state : RegionState World, (∃ position machine ran,
      state = .running position machine ran) ∨ step engine region state = state := by
    rintro (⟨position, machine, ran⟩ | _ | _ | _)
    · exact .inl ⟨position, machine, ran, rfl⟩
    all_goals exact .inr rfl
  rcases hstays ((step engine region)^[steps] start) with hrunning | hfixed
  · exact .inl hrunning
  · right
    by_cases hle : last ≤ steps
    · rw [← Nat.sub_add_cancel hle, Function.iterate_add_apply, Function.iterate_fixed hover]
    · have hlt : steps ≤ last := by omega
      rw [← Nat.sub_add_cancel hlt, Function.iterate_add_apply, Function.iterate_fixed hfixed]

/-- A run that reaches a label outside the region leaves the region for it. -/
theorem leaves {label : Label} {machine : MachineState World} {ran : List Instruction}
    (h : Reaches engine region start (.left label machine ran)) :
    Leaves engine region start label machine ran := ⟨h, h.running_or_eq rfl⟩

/-- The instruction after some items is run where they end. -/
theorem single {before after : List Item} {instruction : Instruction}
    (hregion : region = before ++ .code instruction :: after) (machine : MachineState World)
    (ran : List Instruction) :
    Reaches engine region (.running (codeOf before).length machine ran)
      (runInstruction engine region (codeOf before).length machine ran instruction) := by
  refine ⟨1, ?_⟩
  have hfound : (codeOf region)[(codeOf before).length]? = some instruction := by simp [hregion]
  rw [Function.iterate_one, step, hfound]

end Reaches

/-- A label that is bound once leads to its item. -/
theorem goTo_of_split {before after : List Item} {label : Label}
    (hregion : region = before ++ .bind label :: after) (hnodup : (boundLabels region).Nodup)
    (machine : MachineState World) (ran : List Instruction) :
    goTo region label machine ran = .running (codeOf before).length machine ran := by
  rw [hregion, boundLabels_append, boundLabels_bind_cons] at hnodup
  have hlast : label ∉ boundLabels after :=
    (List.nodup_cons.mp (List.nodup_append.mp hnodup).2.1).1
  rw [goTo, hregion, placeOf?_of_split before hlast]

/-- A label that is not bound leads out of the region. -/
theorem goTo_of_not_mem {label : Label} (h : label ∉ boundLabels region)
    (machine : MachineState World) (ran : List Instruction) :
    goTo region label machine ran = .left label machine ran := by
  rw [goTo, placeOf?_eq_none h]

/-- An instruction without control flow continues with the next one. -/
theorem runInstruction_of_perform {instruction : Instruction} {machine next : MachineState World}
    (h : instruction.perform engine machine = some next) (position : Nat)
    (ran : List Instruction) :
    runInstruction engine region position machine ran instruction =
      .running (position + 1) next (ran ++ [instruction]) := by
  have hgoes := Instruction.goesOn_of_perform h
  have hbranch : instruction.opcode ≠ .branch := by
    intro hopcode
    rw [hopcode] at hgoes
    cases hgoes
  have hcomparison : instruction.opcode.comparison? = none := by
    cases hmade : instruction.opcode.comparison? with
    | none => rfl
    | some made =>
      rw [Opcode.goesOn_of_comparison? hmade] at hgoes
      cases hgoes
  simp only [runInstruction, if_neg hbranch, hcomparison, h]

/-- Instructions without control flow are run one after another. -/
theorem reaches_of_performAll {before after : List Item} {code : List Instruction}
    (hregion : region = before ++ (code.map .code ++ after)) {machine next : MachineState World}
    (hcode : performAll engine code machine = some next) (ran : List Instruction) :
    Reaches engine region (.running (codeOf before).length machine ran)
      (.running (codeOf (before ++ code.map .code)).length next (ran ++ code)) := by
  induction code generalizing before machine ran with
  | nil =>
    cases hcode
    exact ⟨0, by simp⟩
  | cons first rest ih =>
    rw [performAll, List.foldlM_cons] at hcode
    obtain ⟨between, hfirst, hrest⟩ := Option.bind_eq_some_iff.mp hcode
    have hone : Reaches engine region (.running (codeOf before).length machine ran) _ :=
      .single hregion machine ran
    rw [runInstruction_of_perform hfirst] at hone
    have hmore : Reaches engine region
        (.running (codeOf (before ++ [.code first])).length between (ran ++ [first])) _ :=
      ih (by simp [hregion]) hrest (ran ++ [first])
    refine hone.trans ?_
    simpa using hmore

/-- A conditional branch takes two values off and goes to its label where its comparison of them
holds, else to the next instruction. -/
theorem runInstruction_of_comparison {instruction : Instruction} {comparison : Comparison}
    {stack : StackType} {label : Label} {values : List Value} {holds : Bool}
    (hopcode : instruction.opcode.comparison? = some (comparison, stack))
    (hlabel : instruction.label? = some label)
    (hvalues : values.map Value.stack = [stack, stack])
    (hholds : comparison.compare? values = some holds) (position : Nat) (base : Stacks)
    (world : World) (ran : List Instruction) :
    runInstruction engine region position ⟨base.pushAll values, world⟩ ran instruction =
      if holds then goTo region label ⟨base, world⟩ (ran ++ [instruction])
      else .running (position + 1) ⟨base, world⟩ (ran ++ [instruction]) := by
  have hbranch : instruction.opcode ≠ .branch := by
    intro hbranch
    rw [hbranch] at hopcode
    cases hopcode
  have htop : compareTop? comparison stack (base.pushAll values) = some (holds, base) := by
    simp only [compareTop?, ← hvalues, Stacks.popAll_pushAll, Option.bind_some, hholds,
      Option.map_some]
  simp only [runInstruction, if_neg hbranch, hopcode, hlabel, htop]
  cases holds <;> rfl

end Region

end ScriptBackend

import Mathlib.Logic.Function.Iterate
import ScriptBackend.Proofs.Emitter.Items

/-!
# Flat execution

A script runs instruction by instruction in layout order. Branches and switches go to labels, and an
oracle says how each comparison comes out and which key each switch is given. What can be observed
of a run is its history: the instructions that it ran apart from branches, switches and line
markers, and the answers of the oracle, in order. The oracle may answer by all that happened before.
-/

namespace ScriptBackend

/-- What can be observed of a run. -/
inductive Event where
  /-- An instruction ran that is no branch, no switch and no line marker. -/
  | ran (instruction : Instruction)
  /-- A comparison was made. -/
  | tested (opcode : Opcode) (holds : Bool)
  /-- A switch was given a key. -/
  | chose (key : Constant)
  deriving DecidableEq, Repr

/-- All that happened, in order. -/
abbrev History := List Event

/-- How comparisons come out and which keys switches are given, by what happened before. -/
structure Oracle where
  /-- Whether a comparison holds. -/
  holds : History → Opcode → Bool
  /-- The key that a switch is given. -/
  key : History → Constant

/-- Whether an operation ends a run: it returns or leaves for another script. -/
def Opcode.isExit (opcode : Opcode) : Bool := opcode = .leave || opcode = .jump

/-- The state of a run. -/
inductive FlatState where
  /-- The instruction at a position comes next. -/
  | running (position : Nat) (history : History)
  /-- A return or jump has ended the run. -/
  | ended (history : History)
  /-- There is no instruction, or a reference leads nowhere. -/
  | stuck (history : History)
  deriving DecidableEq, Repr

namespace FlatState

/-- What happened up to a state. -/
def history : FlatState → History
  | .running _ history | .ended history | .stuck history => history

/-- Whether a state is stuck. -/
def IsStuck : FlatState → Prop
  | .stuck _ => True
  | .running .. | .ended _ => False

end FlatState

namespace CompiledScript

variable (script : CompiledScript) (oracle : Oracle)

/-- Go to a label. -/
def goTo (label : Label) (history : History) : FlatState :=
  match script.offset? label with
  | some position => .running position history
  | none => .stuck history

/-- Choose a case by a switch table and the key that the oracle gives; without a case the next
instruction comes next. -/
def chooseBy (position : Nat) (history : History) (table : SwitchTable) : FlatState :=
  let after := history ++ [.chose (oracle.key history)]
  match table.find? (oracle.key history) with
  | some entry => script.goTo entry.label after
  | none => .running (position + 1) after

/-- Run the instruction at a position. -/
def runInstruction (position : Nat) (history : History) (instruction : Instruction) : FlatState :=
  if instruction.opcode.isMarker then .running (position + 1) history
  else if instruction.opcode.isBranch then
    match instruction.label? with
    | none => .stuck history
    | some label =>
      if instruction.opcode = .branch then script.goTo label history
      else
        let holds := oracle.holds history instruction.opcode
        let after := history ++ [.tested instruction.opcode holds]
        if holds then script.goTo label after else .running (position + 1) after
  else if instruction.opcode = .switch then
    match instruction.table?.bind script.table? with
    | none => .stuck history
    | some table => script.chooseBy oracle position history table
  else if instruction.opcode.isExit then .ended (history ++ [.ran instruction])
  else .running (position + 1) (history ++ [.ran instruction])

/-- One step of a run; a run that is over stays as it is. -/
def flatStep : FlatState → FlatState
  | .running position history =>
    match script.instructions[position]? with
    | some instruction => script.runInstruction oracle position history instruction
    | none => .stuck history
  | .ended history => .ended history
  | .stuck history => .stuck history

/-- The state after a number of steps from the entry. -/
def flatRun (steps : Nat) : FlatState := (script.flatStep oracle)^[steps] (script.goTo .entry [])

/-- Whether some steps lead from one state to another. -/
def Reaches (start final : FlatState) : Prop :=
  ∃ steps, (script.flatStep oracle)^[steps] start = final

end CompiledScript

namespace CompiledScript

variable {script : CompiledScript} {oracle : Oracle} {start middle final : FlatState}

namespace Reaches

theorem refl (state : FlatState) : script.Reaches oracle state state := ⟨0, rfl⟩

/-- Steps followed by steps. -/
theorem trans (hfirst : script.Reaches oracle start middle)
    (hsecond : script.Reaches oracle middle final) : script.Reaches oracle start final := by
  obtain ⟨before, rfl⟩ := hfirst
  obtain ⟨after, rfl⟩ := hsecond
  exact ⟨after + before, Function.iterate_add_apply _ after before start⟩

end Reaches

section History

variable (script oracle)

@[simp] theorem history_goTo (label : Label) (history : History) :
    (script.goTo label history).history = history := by
  unfold goTo
  cases script.offset? label <;> rfl

/-- Running an instruction adds at most one event to what happened. -/
private theorem exists_history_runInstruction (position : Nat) (history : History)
    (instruction : Instruction) : ∃ events : History, events.length ≤ 1 ∧
      (script.runInstruction oracle position history instruction).history = history ++ events := by
  unfold runInstruction
  split
  · exact ⟨[], Nat.zero_le 1, (List.append_nil history).symm⟩
  · split
    · split
      · exact ⟨[], Nat.zero_le 1, (List.append_nil history).symm⟩
      · split
        · exact ⟨[], Nat.zero_le 1, by simp⟩
        · refine ⟨[.tested instruction.opcode (oracle.holds history instruction.opcode)],
            Nat.le_refl 1, ?_⟩
          simp only
          split
          · exact history_goTo script _ _
          · rfl
    · split
      · split
        · exact ⟨[], Nat.zero_le 1, (List.append_nil history).symm⟩
        · refine ⟨[.chose (oracle.key history)], Nat.le_refl 1, ?_⟩
          unfold chooseBy
          simp only
          split
          · exact history_goTo script _ _
          · rfl
      · exact ⟨[.ran instruction], Nat.le_refl 1, by split <;> rfl⟩

/-- A step adds at most one event to what happened. -/
theorem exists_history_flatStep (state : FlatState) : ∃ events : History, events.length ≤ 1 ∧
    (script.flatStep oracle state).history = state.history ++ events := by
  cases state with
  | running position history =>
    unfold flatStep
    simp only
    split
    · exact exists_history_runInstruction script oracle position history _
    · exact ⟨[], Nat.zero_le 1, (List.append_nil history).symm⟩
  | ended history => exact ⟨[], Nat.zero_le 1, (List.append_nil history).symm⟩
  | stuck history => exact ⟨[], Nat.zero_le 1, (List.append_nil history).symm⟩

/-- Some steps add at most as many events to what happened. -/
theorem exists_history_iterate (steps : Nat) (state : FlatState) : ∃ events : History,
    events.length ≤ steps ∧
      ((script.flatStep oracle)^[steps] state).history = state.history ++ events := by
  induction steps with
  | zero => exact ⟨[], Nat.le_refl 0, (List.append_nil _).symm⟩
  | succ steps ih =>
    obtain ⟨before, hbefore, hstart⟩ := ih
    obtain ⟨after, hafter, hstep⟩ :=
      exists_history_flatStep script oracle ((script.flatStep oracle)^[steps] state)
    refine ⟨before ++ after, ?_, ?_⟩
    · rw [List.length_append]
      omega
    · rw [Function.iterate_succ_apply', hstep, hstart, List.append_assoc]

end History

/-- What happened up to a step is what a longer run begins with. -/
theorem history_flatRun_prefix (script : CompiledScript) (oracle : Oracle) {steps later : Nat}
    (h : steps ≤ later) :
    (script.flatRun oracle steps).history <+: (script.flatRun oracle later).history := by
  obtain ⟨more, rfl⟩ := Nat.exists_eq_add_of_le' h
  obtain ⟨events, -, hevents⟩ := exists_history_iterate script oracle more
    (script.flatRun oracle steps)
  exact ⟨events, by rw [← hevents, flatRun, flatRun, Function.iterate_add_apply]⟩

/-- No more events happen than there are steps. -/
theorem length_history_flatRun_le (script : CompiledScript) (oracle : Oracle) (steps : Nat) :
    (script.flatRun oracle steps).history.length ≤ steps := by
  obtain ⟨events, hle, hevents⟩ := exists_history_iterate script oracle steps
    (script.goTo .entry [])
  rw [flatRun, hevents, history_goTo]
  simpa using hle

/-- A run that is over stays as it is. -/
theorem flatRun_eq_of_ended {steps later : Nat} {history : History}
    (h : script.flatRun oracle steps = .ended history) (hle : steps ≤ later) :
    script.flatRun oracle later = .ended history := by
  obtain ⟨more, rfl⟩ := Nat.exists_eq_add_of_le' hle
  rw [flatRun, Function.iterate_add_apply, ← flatRun, h]
  exact Function.iterate_fixed rfl more

/-- A run that gets stuck stays stuck. -/
theorem isStuck_flatRun {steps later : Nat} (h : (script.flatRun oracle steps).IsStuck)
    (hle : steps ≤ later) : (script.flatRun oracle later).IsStuck := by
  obtain ⟨more, rfl⟩ := Nat.exists_eq_add_of_le' hle
  rw [flatRun, Function.iterate_add_apply, ← flatRun]
  cases hstate : script.flatRun oracle steps with
  | stuck history =>
    rw [Function.iterate_fixed rfl more]
    trivial
  | running position history => rw [hstate] at h; cases h
  | ended history => rw [hstate] at h; cases h

end CompiledScript

end ScriptBackend

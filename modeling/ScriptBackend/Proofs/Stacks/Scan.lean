import ScriptBackend.Proofs.Emitter.Items
import ScriptBackend.Proofs.Stacks.Effects

/-!
# Scanning a listing

A listing is read from top to bottom with the heights of the stacks, which are known wherever
control can come from the line above. At a label all stacks are empty, so nothing needs to be known
about the places that lead to it; below a terminal instruction nothing is known until the next
label. A listing is checked when every instruction whose heights are known finds its operands and
every label is reached with empty stacks, by whichever way. Parts of a listing that each lead from
empty stacks to empty stacks are checked one by one.
-/

namespace ScriptBackend

/-- What must hold where an instruction is run at some heights in a script with some returns. -/
structure Instruction.SafeAt (subjects : Nat → Option StackType) (returns : List Ty)
    (instruction : Instruction) (heights : Heights) : Prop where
  /-- The operands are on the stacks, and where control may leave for a label, nothing else is. -/
  operands : ∃ effect, instruction.effect? subjects = some effect ∧ heights.Holds effect.pops ∧
    (instruction.opcode.isBranch = true ∨ instruction.opcode = .switch →
      effect.apply heights = .empty)
  /-- A script is left with its returns and nothing else on the stacks. -/
  leave : instruction.opcode = .leave → heights = Heights.empty.push (stackTypesOf returns)
  /-- A jump is made with its arguments and nothing else on the stacks. -/
  jump : instruction.opcode = .jump → ∃ symbol, instruction.symbol? = some (.script symbol) ∧
    heights = Heights.empty.push (stackTypesOf symbol.parameters)

/-- The heights below an instruction, if control can come from it. -/
def Instruction.below? (subjects : Nat → Option StackType) (instruction : Instruction)
    (heights : Heights) : Option Heights :=
  if instruction.opcode.isTerminal then none
  else (instruction.effect? subjects).map fun effect => effect.apply heights

/-- What is known of the heights below an item, by what is known above it. -/
def Item.below (subjects : Nat → Option StackType) (above : Option Heights) : Item → Option Heights
  | .bind _ => some .empty
  | .code instruction => above.bind (instruction.below? subjects)

/-- Whether the stacks are empty as far as their heights are known. -/
def IsLevel (known : Option Heights) : Prop := ∀ heights ∈ known, heights = .empty

/-- What is known of the heights below some items. -/
def scan (subjects : Nat → Option StackType) (above : Option Heights) (items : List Item) :
    Option Heights :=
  items.foldl (Item.below subjects) above

/-- Whether items are checked, by what is known above them. -/
def Checked (subjects : Nat → Option StackType) (returns : List Ty) :
    Option Heights → List Item → Prop
  | _, [] => True
  | above, .bind label :: rest =>
    IsLevel above ∧ Checked subjects returns (Item.below subjects above (.bind label)) rest
  | above, .code instruction :: rest =>
    (∀ heights ∈ above, instruction.SafeAt subjects returns heights) ∧
      Checked subjects returns (Item.below subjects above (.code instruction)) rest

/-- Whether items are checked and lead from empty stacks to empty stacks. -/
def Settles (subjects : Nat → Option StackType) (returns : List Ty) (items : List Item) : Prop :=
  ∀ above, IsLevel above →
    Checked subjects returns above items ∧ IsLevel (scan subjects above items)

variable {subjects : Nat → Option StackType} {returns : List Ty} {first second : List Item}

theorem isLevel_none : IsLevel none := fun _ h => absurd h (Option.not_mem_none _)

theorem isLevel_empty : IsLevel (some .empty) := fun _ h => (Option.mem_some_iff.mp h).symm

/-- Where heights are known and the stacks are empty, the heights are zero. -/
theorem IsLevel.eq_none_or {known : Option Heights} (h : IsLevel known) :
    known = none ∨ known = some .empty := by
  cases known with
  | none => exact .inl rfl
  | some heights => exact .inr (congrArg some (h heights rfl))

/-- Items after items are scanned from what is known below the first. -/
theorem scan_append (subjects : Nat → Option StackType) (above : Option Heights)
    (first second : List Item) :
    scan subjects above (first ++ second) = scan subjects (scan subjects above first) second :=
  List.foldl_append

/-- Items after items are checked from what is known below the first. -/
theorem checked_append {above : Option Heights} :
    Checked subjects returns above (first ++ second) ↔
      Checked subjects returns above first ∧
        Checked subjects returns (scan subjects above first) second := by
  induction first generalizing above with
  | nil => exact (iff_of_eq (true_and _)).symm
  | cons item rest ih =>
    cases item with
    | bind label => rw [List.cons_append, Checked, Checked, ih, and_assoc]; rfl
    | code instruction => rw [List.cons_append, Checked, Checked, ih, and_assoc]; rfl

/-- Nothing is known of instructions that control does not come to. -/
theorem checked_none_code (code : List Instruction) :
    Checked subjects returns none (code.map .code) ∧
      scan subjects none (code.map .code) = none := by
  induction code with
  | nil => exact ⟨trivial, rfl⟩
  | cons instruction rest ih => exact ⟨⟨fun _ h => absurd h (Option.not_mem_none _), ih.1⟩, ih.2⟩

/-- An instruction that always continues is safe where it finds its operands. -/
theorem safeAt_of_goesOn {instruction : Instruction} {heights : Heights} {effect : StackEffect}
    (hflow : instruction.opcode.goesOn = true)
    (heffect : instruction.effect? subjects = some effect) (hholds : heights.Holds effect.pops) :
    instruction.SafeAt subjects returns heights := by
  simp only [Opcode.goesOn, Bool.and_eq_true, Bool.not_eq_true', bne_iff_ne, ne_eq] at hflow
  obtain ⟨⟨hterminal, hbranch⟩, hswitch⟩ := hflow
  refine ⟨⟨effect, heffect, hholds, ?_⟩, ?_, ?_⟩
  · rintro (htrue | heq)
    · rw [hbranch] at htrue
      cases htrue
    · exact absurd heq hswitch
  · intro heq
    rw [heq] at hterminal
    cases hterminal
  · intro heq
    rw [heq] at hterminal
    cases hterminal

/-- Instructions that run find their operands, and the heights below them are known. -/
theorem Runs.checked {start final : Heights} {code : List Instruction}
    (h : Runs subjects start code final) :
    Checked subjects returns (some start) (code.map .code) ∧
      scan subjects (some start) (code.map .code) = some final := by
  induction h with
  | nil => exact ⟨trivial, rfl⟩
  | @cons heights _ instruction rest effect hflow heffect hholds _ ih =>
    have hsafe := @safeAt_of_goesOn subjects returns _ _ _ hflow heffect hholds
    have hterminal : instruction.opcode.isTerminal = false := by
      simp only [Opcode.goesOn, Bool.and_eq_true, Bool.not_eq_true'] at hflow
      exact hflow.1.1
    have hbelow : Item.below subjects (some heights) (.code instruction) =
        some (effect.apply heights) := by
      rw [Item.below, Option.bind_some, Instruction.below?, hterminal, heffect]
      rfl
    rw [List.map_cons, Checked, hbelow]
    refine ⟨⟨?_, ih.1⟩, ?_⟩
    · intro known hknown
      rwa [← Option.mem_some_iff.mp hknown]
    · rw [scan, List.foldl_cons, hbelow]
      exact ih.2

namespace Settles

theorem nil : Settles subjects returns [] := fun _ hlevel => ⟨trivial, hlevel⟩

/-- Parts that each lead from empty stacks to empty stacks do so together. -/
theorem append (hfirst : Settles subjects returns first)
    (hsecond : Settles subjects returns second) :
    Settles subjects returns (first ++ second) := by
  intro above hlevel
  obtain ⟨hchecked, hmiddle⟩ := hfirst above hlevel
  obtain ⟨hrest, hbelow⟩ := hsecond _ hmiddle
  rw [checked_append, scan_append]
  exact ⟨⟨hchecked, hrest⟩, hbelow⟩

/-- A label that is reached with empty stacks. -/
theorem bind (label : Label) : Settles subjects returns [.bind label] :=
  fun _ hlevel => ⟨⟨hlevel, trivial⟩, isLevel_empty⟩

/-- Instructions are checked where control does not come to them, so only empty stacks matter. -/
theorem of_empty {code : List Instruction}
    (hchecked : Checked subjects returns (some .empty) (code.map .code))
    (hbelow : IsLevel (scan subjects (some .empty) (code.map .code))) :
    Settles subjects returns (code.map .code) := by
  intro above hlevel
  rcases hlevel.eq_none_or with rfl | rfl
  · obtain ⟨hnone, hscan⟩ := @checked_none_code subjects returns code
    rw [hscan]
    exact ⟨hnone, isLevel_none⟩
  · exact ⟨hchecked, hbelow⟩

/-- Instructions that run from empty stacks to empty stacks. -/
theorem of_runs {code : List Instruction} (h : Runs subjects .empty code .empty) :
    Settles subjects returns (code.map .code) := by
  obtain ⟨hchecked, hscan⟩ := @Runs.checked subjects returns _ _ _ h
  refine of_empty hchecked ?_
  rw [hscan]
  exact isLevel_empty

/-- Instructions that run from empty stacks to where control may leave for a label or for good. -/
theorem of_runs_control {code : List Instruction} {heights : Heights} {instruction : Instruction}
    (h : Runs subjects .empty code heights)
    (hsafe : instruction.SafeAt subjects returns heights)
    (hcontrol : instruction.opcode.goesOn = false) :
    Settles subjects returns ((code ++ [instruction]).map .code) := by
  obtain ⟨hchecked, hscan⟩ := @Runs.checked subjects returns _ _ _ h
  refine of_empty ?_ ?_
  · rw [List.map_append, checked_append, hscan]
    refine ⟨hchecked, ?_, trivial⟩
    intro known hknown
    rwa [← Option.mem_some_iff.mp hknown]
  · rw [List.map_append, scan_append, hscan]
    change IsLevel (instruction.below? subjects heights)
    unfold Instruction.below?
    split
    · exact isLevel_none
    · next hterminal =>
      -- what is not terminal is a branch or a switch, which leaves empty stacks
      obtain ⟨effect, heffect, -, hempty⟩ := hsafe.operands
      rw [heffect, Option.map_some, hempty]
      · exact isLevel_empty
      · simp only [Opcode.goesOn, hterminal, Bool.not_false, Bool.true_and, Bool.and_eq_false_iff,
          Bool.not_eq_false', bne_eq_false_iff_eq] at hcontrol
        exact hcontrol

end Settles

end ScriptBackend

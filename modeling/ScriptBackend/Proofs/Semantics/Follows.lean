import ScriptBackend.Proofs.Lowering.Plain
import ScriptBackend.Proofs.Lowering.Shape
import ScriptBackend.Proofs.Semantics.Structured

/-!
# Following a run by the tree

A part of a script stands in the listing from some position on. A flat run from that position
follows the part when it does what the part does by its tree and goes on at the position that the
part leads to; if the tree ends its run, so does the flat run. Parts that follow one another are
followed one after another, and a loop is followed round by round. Items realize a run by the tree
if they are followed wherever they stand.
-/

namespace ScriptBackend

namespace CompiledScript

/-- Whether items stand in a script from a position on, counted in instructions. -/
def HasAt (script : CompiledScript) (items : List Item) (position : Nat) : Prop :=
  ∃ before after, script.items = before ++ (items ++ after) ∧ position = (codeOf before).length

section Places

variable {script : CompiledScript} {first second items : List Item} {position : Nat}

/-- The first of two parts stands where both stand. -/
theorem HasAt.left (h : script.HasAt (first ++ second) position) : script.HasAt first position := by
  obtain ⟨before, after, hitems, hposition⟩ := h
  exact ⟨before, second ++ after, by simp [hitems], hposition⟩

/-- The second of two parts stands after the first. -/
theorem HasAt.right (h : script.HasAt (first ++ second) position) :
    script.HasAt second (position + (codeOf first).length) := by
  obtain ⟨before, after, hitems, hposition⟩ := h
  exact ⟨before ++ first, after, by simp [hitems], by simp [hposition]⟩

/-- What follows instructions stands after them. -/
theorem HasAt.right_code {code : List Instruction}
    (h : script.HasAt (code.map .code ++ items) position) :
    script.HasAt items (position + code.length) := by
  simpa using h.right

/-- A bound label leads to where it stands. -/
theorem HasAt.offset? (hnodup : (boundLabels script.items).Nodup) {label : Label}
    (h : script.HasAt (.bind label :: items) position) : script.offset? label = some position := by
  obtain ⟨before, after, hitems, rfl⟩ := h
  exact offset?_eq_of_split hnodup (by simpa using hitems)

/-- What follows a bound label stands where the label stands. -/
theorem HasAt.tail_bind {label : Label} (h : script.HasAt (.bind label :: items) position) :
    script.HasAt items position :=
  (show script.HasAt ([.bind label] ++ items) position from h).right

/-- The instruction at a position. -/
theorem HasAt.getElem? {instruction : Instruction}
    (h : script.HasAt (.code instruction :: items) position) :
    script.instructions[position]? = some instruction := by
  obtain ⟨before, after, hitems, rfl⟩ := h
  exact getElem?_instructions (by simpa using hitems)

/-- What follows an instruction stands at the next position. -/
theorem HasAt.tail_code {instruction : Instruction}
    (h : script.HasAt (.code instruction :: items) position) : script.HasAt items (position + 1) :=
  (show script.HasAt ([.code instruction] ++ items) position from h).right

end Places

/-- Whether a flat run goes from one position to another and nothing can be observed of it. -/
def Passes (script : CompiledScript) (oracle : Oracle) (start final : Nat) : Prop :=
  ∀ history, script.Reaches oracle (.running start history) (.running final history)

/-- Whether a flat run from a position does what a run by the tree does, and goes on at the position
that belongs to the value of the run. -/
def Follows {α : Type} (script : CompiledScript) (oracle : Oracle) (position : Nat) (exec : Exec α)
    (target : α → Nat) : Prop :=
  ∀ history, match exec history with
    | .ok value after =>
      script.Reaches oracle (.running position history) (.running (target value) after)
    | .error .ended after => script.Reaches oracle (.running position history) (.ended after)
    | .error .outOfRounds after =>
      ∃ later, script.Reaches oracle (.running position history) (.running later after)

section Steps

variable {script : CompiledScript} {oracle : Oracle} {position : Nat}

/-- The state after the step from a position with an instruction. -/
theorem reaches_of_getElem? (oracle : Oracle) (history : History) {instruction : Instruction}
    (h : script.instructions[position]? = some instruction) :
    script.Reaches oracle (.running position history)
      (script.runInstruction oracle position history instruction) := by
  refine ⟨1, ?_⟩
  change script.flatStep oracle (.running position history) = _
  rw [flatStep, h]

/-- Going to a label that leads somewhere. -/
theorem goTo_eq {label : Label} {target : Nat} (h : script.offset? label = some target)
    (history : History) : script.goTo label history = .running target history := by
  rw [goTo, h]

theorem Passes.refl (position : Nat) : script.Passes oracle position position := fun _ => .refl _

/-- A mark of a line is passed. -/
theorem passes_mark {span : Span} {mark : List Instruction} (hmark : IsMark span mark)
    (h : script.HasAt (mark.map .code) position) :
    script.Passes oracle position (position + mark.length) := by
  intro history
  rcases hmark with rfl | rfl
  · exact .refl _
  · exact reaches_of_getElem? oracle history (HasAt.getElem? h)

/-- An unconditional branch is passed to its label. -/
theorem passes_branchAlways {label : Label} {span : Span} {target : Nat} {items : List Item}
    (h : script.HasAt (.code (branchAlways label span) :: items) position)
    (hlabel : script.offset? label = some target) : script.Passes oracle position target := by
  intro history
  have hstep := reaches_of_getElem? oracle history h.getElem?
  rwa [show script.runInstruction oracle position history (branchAlways label span) =
    script.goTo label history from rfl, goTo_eq hlabel] at hstep

end Steps

namespace Follows

variable {α β : Type} {script : CompiledScript} {oracle : Oracle} {position : Nat}
  {exec : Exec α} {target : α → Nat}

/-- A value is there already. -/
theorem pure {value : α} (h : script.Passes oracle position (target value)) :
    script.Follows oracle position (pure value) target := h

/-- Runs in order are followed one after the other. -/
theorem bind {next : α → Exec β} {target' : β → Nat}
    (h : script.Follows oracle position exec target)
    (hnext : ∀ value, script.Follows oracle (target value) (next value) target') :
    script.Follows oracle position (exec >>= next) target' := by
  intro history
  have hfirst := h history
  change match EStateM.bind exec next history with
    | .ok value after =>
      script.Reaches oracle (.running position history) (.running (target' value) after)
    | .error .ended after => script.Reaches oracle (.running position history) (.ended after)
    | .error .outOfRounds after =>
      ∃ later, script.Reaches oracle (.running position history) (.running later after)
  unfold EStateM.bind
  cases hexec : exec history with
  | ok value middle =>
    rw [hexec] at hfirst
    have hsecond := hnext value middle
    simp only at hfirst ⊢
    cases hresult : next value middle with
    | ok result after =>
      rw [hresult] at hsecond
      exact hfirst.trans hsecond
    | error ending after =>
      rw [hresult] at hsecond
      cases ending with
      | ended => exact hfirst.trans hsecond
      | outOfRounds =>
        obtain ⟨later, hlater⟩ := hsecond
        exact ⟨later, hfirst.trans hlater⟩
  | error ending after =>
    rw [hexec] at hfirst
    cases ending <;> exact hfirst

/-- A run is followed from where it is passed to. -/
theorem after_passes {start : Nat} (hpasses : script.Passes oracle start position)
    (h : script.Follows oracle position exec target) :
    script.Follows oracle start exec target := by
  have hstart : script.Follows oracle start (Pure.pure ()) fun _ : Unit => position := hpasses
  exact hstart.bind fun _ => h

/-- A run is followed to where its end is passed to. -/
theorem before_passes {target' : α → Nat} (h : script.Follows oracle position exec target)
    (hpasses : ∀ value, script.Passes oracle (target value) (target' value)) :
    script.Follows oracle position exec target' := by
  rw [← bind_pure exec]
  exact h.bind fun value => hpasses value

/-- An instruction that is neither a branch nor a switch nor a mark is run. -/
theorem run {instruction : Instruction} {items : List Item}
    (h : script.HasAt (.code instruction :: items) position) (hplain : instruction.IsPlain) :
    script.Follows oracle position (Exec.run instruction) fun _ => position + 1 := by
  intro history
  have hstep := reaches_of_getElem? oracle history h.getElem?
  rw [runInstruction, hplain.isMarker_eq_false, hplain.isBranch_eq_false,
    if_neg Bool.false_ne_true, if_neg Bool.false_ne_true, if_neg hplain.opcode_ne_switch] at hstep
  unfold Exec.run
  cases hexit : instruction.opcode.isExit with
  | true =>
    rw [hexit] at hstep
    exact hstep
  | false =>
    rw [hexit] at hstep
    exact hstep

/-- Plain code is run to its end. -/
theorem runAll {code : List Instruction} (h : script.HasAt (code.map .code) position)
    (hplain : ∀ instruction ∈ code, instruction.IsPlain) :
    script.Follows oracle position (Exec.runAll code) fun _ => position + code.length := by
  induction code generalizing position with
  | nil => exact pure (.refl position)
  | cons first rest ih =>
    rw [List.forall_mem_cons] at hplain
    have hrest := ih h.tail_code hplain.2
    rw [List.length_cons, show position + (rest.length + 1) = position + 1 + rest.length by omega]
    exact (run h hplain.1).bind fun _ => hrest

/-- The code of a value expression is run to its end. -/
theorem runCode {trailers : Trailers} {e : Expr} {code : List Instruction}
    (hcode : e.code trailers .value = .ok code) (h : script.HasAt (code.map .code) position) :
    script.Follows oracle position (Exec.runCode (e.code trailers .value)) fun _ =>
      position + code.length := by
  rw [hcode]
  exact runAll h (Expr.isPlain_code trailers .value e code hcode)

/-- A comparison in front of an unconditional branch goes to one of the two labels. -/
theorem test {opcode : Opcode} (hopcode : opcode.isConditional = true) {onTrue onFalse : Label}
    {span : Span} {items : List Item} {whenTrue whenFalse : Nat}
    (h : script.HasAt (.code ((Instruction.branchTo opcode onTrue).atSpan span) ::
      .code (branchAlways onFalse span) :: items) position)
    (htrue : script.offset? onTrue = some whenTrue)
    (hfalse : script.offset? onFalse = some whenFalse) :
    script.Follows oracle position (Exec.test oracle opcode) fun holds =>
      if holds then whenTrue else whenFalse := by
  intro history
  have hbranch : opcode.isBranch = true ∧ opcode ≠ .branch := by
    simpa [Opcode.isConditional] using hopcode
  have hmarker : opcode.isMarker = false := by
    cases opcode <;> first | rfl | cases hopcode
  have hrun : script.runInstruction oracle position history
      ((Instruction.branchTo opcode onTrue).atSpan span) =
        if oracle.holds history opcode then
          script.goTo onTrue (history ++ [.tested opcode (oracle.holds history opcode)])
        else .running (position + 1)
          (history ++ [.tested opcode (oracle.holds history opcode)]) := by
    change (if opcode.isMarker then _ else if opcode.isBranch then
      if opcode = .branch then _ else _ else _) = _
    rw [hmarker, if_neg Bool.false_ne_true, if_pos hbranch.1, if_neg hbranch.2]
    rfl
  have hstep := reaches_of_getElem? oracle history h.getElem?
  rw [hrun] at hstep
  simp only [Exec.test]
  cases hholds : oracle.holds history opcode with
  | true =>
    rw [hholds, if_pos rfl, goTo_eq htrue] at hstep
    exact hstep
  | false =>
    rw [hholds, if_neg Bool.false_ne_true] at hstep
    exact hstep.trans (passes_branchAlways h.tail_code hfalse _)

/-- A loop is followed round by round. -/
theorem loop {test : Exec Bool} {body : Exec Unit} {inside done : Nat}
    (htest : script.Follows oracle position test fun holds => if holds then inside else done)
    (hbody : script.Follows oracle inside body fun _ => position) (rounds : Nat) :
    script.Follows oracle position (Exec.loop rounds test body) fun _ => done := by
  induction rounds with
  | zero => exact fun history => ⟨position, .refl _⟩
  | succ rounds ih =>
    refine htest.bind fun holds => ?_
    cases holds with
    | true => exact hbody.bind fun _ => ih
    | false => exact pure (.refl done)

end Follows

/-- Whether a flat run follows a run by the tree along some items to their end, wherever in the
script they stand. -/
def Realizes (script : CompiledScript) (oracle : Oracle) (items : List Item) (exec : Exec Unit) :
    Prop :=
  ∀ position, script.HasAt items position →
    script.Follows oracle position exec fun _ => position + (codeOf items).length

namespace Realizes

variable {script : CompiledScript} {oracle : Oracle} {first second : List Item}
  {exec next : Exec Unit}

/-- Without items nothing is run. -/
theorem nil : script.Realizes oracle [] (Pure.pure ()) :=
  fun position _ => .pure (.refl position)

/-- Items that follow one another are followed one after the other. -/
theorem append (hfirst : script.Realizes oracle first exec)
    (hsecond : script.Realizes oracle second next) :
    script.Realizes oracle (first ++ second) (exec >>= fun _ => next) := by
  intro position hplace
  rw [codeOf_append, List.length_append, ← Nat.add_assoc]
  exact (hfirst position hplace.left).bind fun _ => hsecond _ hplace.right

/-- A mark of a line in front of items is passed. -/
theorem after_mark {span : Span} {mark : List Instruction} (hmark : IsMark span mark)
    (h : script.Realizes oracle first exec) :
    script.Realizes oracle (mark.map .code ++ first) exec := by
  intro position hplace
  rw [codeOf_append, codeOf_map_code, List.length_append, ← Nat.add_assoc]
  exact (h _ hplace.right_code).after_passes (passes_mark hmark hplace.left)

/-- Plain code is run to its end. -/
theorem runAll {code : List Instruction} (hplain : ∀ instruction ∈ code, instruction.IsPlain) :
    script.Realizes oracle (code.map .code) (Exec.runAll code) := by
  intro position hplace
  rw [codeOf_map_code]
  exact Follows.runAll hplace hplain

end Realizes

end CompiledScript

end ScriptBackend

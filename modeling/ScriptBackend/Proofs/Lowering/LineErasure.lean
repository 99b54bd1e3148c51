import ScriptBackend.Proofs.Flow.LineErasure
import ScriptBackend.Proofs.Lowering.Laws

/-!
# Lowering without line markers

Marking lines changes nothing but which markers stand in the code. A step of lowering that starts in
the same state without markers, with the marking of lines switched off, ends in the same state
without markers, or fails with the same error. This holds as long as a block is open, because a
marker that comes before all blocks would open one. So a generator that marks no lines gives every
script without its markers.
-/

namespace ScriptBackend

/-- The emitter as it would be if it never marked a line. -/
def Emitter.unmarked (emitter : Emitter) : Emitter :=
  { emitter with blocks := emitter.blocks.map Block.unmarked, lines := { enabled := false } }

/-- The state as it would be if no line was marked. -/
def LowerState.unmarked (state : LowerState) : LowerState :=
  { state with emitter := state.emitter.unmarked }

/-- An instruction that is no marker is added alike to blocks without markers. -/
private theorem map_unmarked_appendInstruction {instruction : Instruction}
    (h : instruction.opcode.isMarker = false) (blocks : List Block) :
    (appendInstruction instruction blocks).map Block.unmarked =
      appendInstruction instruction (blocks.map Block.unmarked) := by
  induction blocks with
  | nil => simp [appendInstruction, Block.unmarked, Block.real, h]
  | cons block rest ih =>
    cases rest with
    | nil => simp [appendInstruction, Block.unmarked, Block.real, Block.push, h]
    | cons next rest => exact congrArg (block.unmarked :: ·) ih

/-- A marker that is added to an open block is taken out with the others. -/
private theorem map_unmarked_appendMarker {marker : Instruction}
    (h : marker.opcode.isMarker = true) {blocks : List Block} (hopen : blocks ≠ []) :
    (appendInstruction marker blocks).map Block.unmarked = blocks.map Block.unmarked := by
  induction blocks with
  | nil => exact absurd rfl hopen
  | cons block rest ih =>
    cases rest with
    | nil => simp [appendInstruction, Block.unmarked, Block.real, Block.push, h]
    | cons next rest => exact congrArg (block.unmarked :: ·) (ih (List.cons_ne_nil _ _))

/-- Adding an instruction leaves a block open. -/
private theorem appendInstruction_ne_nil (instruction : Instruction) (blocks : List Block) :
    appendInstruction instruction blocks ≠ [] := by
  fun_cases appendInstruction instruction blocks <;> exact List.cons_ne_nil _ _

namespace Emitter

/-- Marking a line adds nothing but a marker. -/
private theorem unmarked_markLine {emitter : Emitter} (hopen : emitter.blocks ≠ []) (span : Span) :
    (emitter.markLine span).unmarked = emitter.unmarked ∧
      (emitter.markLine span).blocks ≠ [] := by
  unfold markLine
  cases hmarker : emitter.lines.marker? span with
  | none => exact ⟨rfl, hopen⟩
  | some marker =>
    have hopcode : marker.opcode.isMarker = true := by
      unfold LineTracker.marker? at hmarker
      split at hmarker
      · cases hmarker
        rfl
      · cases hmarker
    refine ⟨?_, appendInstruction_ne_nil marker emitter.blocks⟩
    simp only [unmarked, emit, map_unmarked_appendMarker hopcode hopen]

/-- An emitter that marks no lines has no marker to add. -/
private theorem markLine_unmarked (emitter : Emitter) (span : Span) :
    emitter.unmarked.markLine span = emitter.unmarked := rfl

end Emitter

namespace Lower

variable {α β : Type}

/-- What a step gives, with the state that it leaves freed from markers. -/
def unmarkedResult : EStateM.Result LoweringError LowerState α →
    EStateM.Result LoweringError LowerState α
  | .ok value state => .ok value state.unmarked
  | .error error state => .error error state.unmarked

/-- Whether a step that starts with an open block does without markers what it does with them, and
leaves a block open. -/
def IgnoresMarkers (step : Lower α) : Prop :=
  ∀ state, state.emitter.blocks ≠ [] →
    step state.unmarked = unmarkedResult (step state) ∧ (final step state).emitter.blocks ≠ []

/-- Two steps in order ignore markers if both do. -/
private theorem IgnoresMarkers.bind {step : Lower α} {next : α → Lower β}
    (hstep : IgnoresMarkers step) (hnext : ∀ value, IgnoresMarkers (next value)) :
    IgnoresMarkers (step >>= next) := by
  intro state hopen
  obtain ⟨hsame, hmiddle⟩ := hstep state hopen
  have hbind : ∀ start, (step >>= next) start = EStateM.bind step next start := fun _ => rfl
  unfold final at hmiddle ⊢
  rw [hbind, hbind, EStateM.bind, EStateM.bind, hsame]
  cases hrun : step state with
  | ok value middle =>
    rw [hrun] at hmiddle
    exact hnext value middle hmiddle
  | error error middle =>
    rw [hrun] at hmiddle
    exact ⟨rfl, hmiddle⟩

/-- It is a law of lowering that markers are ignored. -/
def ignoresMarkers : StepLaw where
  Holds := IgnoresMarkers
  pure _ _ hopen := ⟨rfl, hopen⟩
  bind := IgnoresMarkers.bind
  ofExcept outcome _ hopen := by cases outcome <;> exact ⟨rfl, hopen⟩
  emit {instruction} hmarker state hopen := by
    refine ⟨?_, appendInstruction_ne_nil instruction state.emitter.blocks⟩
    simp only [Lower.emit, unmarkedResult, LowerState.unmarked, Emitter.unmarked, Emitter.emit,
      map_unmarked_appendInstruction hmarker]
  markLine span state hopen := by
    obtain ⟨hsame, hmarked⟩ := Emitter.unmarked_markLine hopen span
    refine ⟨?_, hmarked⟩
    simp only [Lower.markLine, unmarkedResult, LowerState.unmarked, Emitter.markLine_unmarked,
      hsame]
  takeLabel _ _ hopen := ⟨rfl, hopen⟩
  bindLabel label state _ := by
    refine ⟨?_, List.append_ne_nil_of_right_ne_nil _ (List.cons_ne_nil _ _)⟩
    simp only [Lower.bindLabel, unmarkedResult, LowerState.unmarked, Emitter.unmarked,
      Emitter.bind, List.map_append]
    rfl
  takeTable _ hopen := ⟨rfl, hopen⟩
  addCase _ _ _ hopen := ⟨rfl, hopen⟩
  addLocal _ _ hopen := ⟨rfl, hopen⟩

end Lower

/-- A generator that marks no lines gives every script without its markers, or the same error. -/
theorem Generator.script_withoutLines {generator : Generator}
    (hhandlers : generator.handlers.AreTrailers) (decl : ScriptDecl) :
    ((generator.withLineNumbers false).script decl).1 =
      (generator.script decl).1.map CompiledScript.unmarked := by
  have hhandles : Lower.ignoresMarkers.Handles (generator.context decl.symbol).handlers :=
    Lower.ignoresMarkers.handles_of_areTrailers hhandlers
  have hsame := (Lower.StepLaw.body hhandles decl.body decl.span (generator.start decl)
    (List.cons_ne_nil _ _)).1
  have hstart : (generator.withLineNumbers false).start decl =
      (generator.start decl).unmarked := rfl
  have hcontext : (generator.withLineNumbers false).context decl.symbol =
      generator.context decl.symbol := rfl
  unfold script
  rw [hstart, hcontext, hsame]
  cases Lower.body (generator.context decl.symbol) decl.body decl.span (generator.start decl) with
  | ok value state => rfl
  | error error state => rfl

end ScriptBackend

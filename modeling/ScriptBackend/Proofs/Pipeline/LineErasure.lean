import ScriptBackend.Proofs.Checker.LineErasure
import ScriptBackend.Proofs.Lowering.LineErasure
import ScriptBackend.Proofs.Pipeline.Isolation

/-!
# Line markers can be left out

Whether lines are marked has no influence on a compilation but for the markers themselves. Each
script is emitted without its markers when lines are not marked, the declarations that fail do so
with the same errors, and the check of the pointers finds the same.
-/

namespace ScriptBackend

namespace Config

/-- Outcomes without markers amount to the same diagnostics and to the scripts without markers. -/
private theorem ofOutcomes_unmarked (outcomes : List (Except LoweringError CompiledScript)) :
    FileCode.ofOutcomes (outcomes.map (Except.map CompiledScript.unmarked)) =
      { FileCode.ofOutcomes outcomes with
        scripts := (FileCode.ofOutcomes outcomes).scripts.map CompiledScript.unmarked } := by
  have hscripts : ∀ outcome : Except LoweringError CompiledScript,
      (outcome.map CompiledScript.unmarked).toOption =
        outcome.toOption.map CompiledScript.unmarked := by
    intro outcome
    cases outcome <;> rfl
  have herrors : ∀ outcome : Except LoweringError CompiledScript,
      errorOf? (outcome.map CompiledScript.unmarked) = errorOf? outcome := by
    intro outcome
    cases outcome <;> rfl
  unfold FileCode.ofOutcomes
  simp only [List.filterMap_map, List.map_filterMap, Function.comp_def, hscripts, herrors]

/-- The rest of a compilation goes the same way for scripts without markers. -/
private theorem conclude_unmarked (config : Config) (code : FileCode) :
    config.conclude { code with scripts := code.scripts.map CompiledScript.unmarked } =
      { config.conclude code with
        scripts := (config.conclude code).scripts.map CompiledScript.unmarked } := by
  unfold conclude
  simp only [checkPointers_unmarked]
  split
  · rfl
  · split <;> rfl

/-- Without line markers every declaration gives the same script without its markers, or the same
error. -/
private theorem outcomes_unmarked {config : Config} (h : config.handlers.AreTrailers)
    (scope : Scope) (files : List ScriptFile) :
    { config with lineNumbers := false }.outcomes scope files =
      ({ config with lineNumbers := true }.outcomes scope files).map
        (Except.map CompiledScript.unmarked) := by
  unfold outcomes
  rw [List.map_map]
  refine List.map_congr_left fun decl _ => ?_
  exact @Generator.script_withoutLines ({ config with lineNumbers := true }.generator scope) h decl

/-- Compiling with and without line markers reports the same and fails in the same phase, and
without them it gives the same scripts with all markers taken out, so that none is left. -/
theorem compile_lines_erasable (config : Config) (scope : Scope) (files : List ScriptFile)
    (hhandlers : config.handlers.AreTrailers) :
    let marked := { config with lineNumbers := true }.compile scope files
    let plain := { config with lineNumbers := false }.compile scope files
    plain.diagnostics = marked.diagnostics ∧ plain.failedPhase = marked.failedPhase ∧
      plain.scripts = marked.scripts.map CompiledScript.unmarked ∧
      ∀ script ∈ plain.scripts, ∀ instruction ∈ script.instructions,
        instruction.opcode ≠ .lineNumber := by
  intro marked plain
  have hconclude (lineNumbers : Bool) : { config with lineNumbers }.compile scope files =
      config.conclude (.ofOutcomes ({ config with lineNumbers }.outcomes scope files)) := by
    have hsame := @outcomesInTurn_eq { config with lineNumbers } hhandlers.keepSettings scope files
    rw [compile_eq_conclude, hsame]
    rfl
  have hmarked : marked =
      config.conclude (.ofOutcomes ({ config with lineNumbers := true }.outcomes scope files)) :=
    hconclude true
  have hplain : plain =
      { marked with scripts := marked.scripts.map CompiledScript.unmarked } := by
    rw [hmarked, ← conclude_unmarked, ← ofOutcomes_unmarked, ← outcomes_unmarked hhandlers]
    exact hconclude false
  rw [hplain]
  refine ⟨rfl, rfl, rfl, fun script hscript instruction hinstruction hopcode => ?_⟩
  obtain ⟨original, -, rfl⟩ := List.mem_map.mp hscript
  obtain ⟨block, hblock, hmem⟩ := List.mem_flatMap.mp hinstruction
  obtain ⟨bare, -, rfl⟩ := List.mem_map.mp hblock
  have hmarker := Block.isMarker_of_mem_unmarked hmem
  rw [hopcode] at hmarker
  cases hmarker

/-- The options of a compilation with a command that corrupts the active player. -/
private def hurtConfig : Config :=
  { contracts := ⟨[("hurt", Effects.none.corrupts (.single .activePlayer))]⟩
    handlers := ⟨[("hurt", .argumentTrailer 0)]⟩ }

/-- A script that hurts on one line and does nothing on the next two. -/
private def hurtThenRest : List ScriptFile :=
  let hurt : CallHead :=
    ⟨.command, "hurt", false, .unit, some (.command ⟨"hurt", [], []⟩), ⟨2, 1⟩⟩
  let one : Expr := .literal (.int 1) .int none ⟨2, 6⟩
  [⟨"only", [⟨⟨.proc, "hurt_then_rest", [], []⟩, [],
    [.evaluate (.call hurt [one]) ⟨2, 1⟩, .empty ⟨3, 1⟩, .empty ⟨4, 1⟩], ⟨1, 1⟩⟩]⟩]

theorem compile_lines_erasable_hurtThenRest :
    let marked := { hurtConfig with lineNumbers := true }.compile {} hurtThenRest
    let plain := { hurtConfig with lineNumbers := false }.compile {} hurtThenRest
    hurtConfig.handlers.AreTrailers ∧ plain.failedPhase = some .pointerAnalysis ∧
      (marked.scripts.map fun script => script.instructions.length) = [7] ∧
      (plain.scripts.map fun script => script.instructions.length) = [4] := by
  intro marked plain
  have hhandlers : hurtConfig.handlers.AreTrailers := by
    simp [Handlers.AreTrailers, hurtConfig]
  obtain ⟨-, hphase, hscripts, -⟩ :=
    compile_lines_erasable hurtConfig {} hurtThenRest hhandlers
  have hmarked : marked.failedPhase = some .pointerAnalysis := by decide +kernel
  refine ⟨hhandlers, hphase.trans hmarked, by decide +kernel, ?_⟩
  have hplain : plain.scripts = marked.scripts.map CompiledScript.unmarked := hscripts
  rw [hplain]
  decide +kernel

end Config

end ScriptBackend

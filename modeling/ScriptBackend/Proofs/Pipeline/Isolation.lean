import ScriptBackend.Pipeline
import ScriptBackend.Proofs.Lowering.Laws

/-!
# Scripts are compiled in isolation

One generator compiles all scripts, and a script that fails leaves it in the middle of its code.
What a script is compiled to depends on the generator only by its settings: its scope, its handlers,
whether it marks lines, and what its handlers remember. A start forgets the rest. So a compilation
is told by what each declaration gives on a new generator with the settings that the declarations
before it left. It fails in emission exactly if a declaration fails, and only otherwise are pointers
checked.

Lowering itself changes no setting. A handler can: it may put an emitter in place that marks lines
where the other did not, and it may remember. Where no handler does so, every declaration gives what
it gives on a generator with the settings of the configuration.
-/

namespace ScriptBackend

/-- What of the state of lowering outlasts a script: whether lines are marked, and what handlers
remember. -/
def LowerState.settings (state : LowerState) : Bool × List String :=
  (state.emitter.lines.enabled, state.memory)

namespace Lower

variable {α β : Type}

/-- Whether a step never changes the settings. -/
def KeepsSettings (step : Lower α) : Prop := ∀ state, (final step state).settings = state.settings

/-- Two steps in order keep the settings if both do. -/
private theorem KeepsSettings.bind {step : Lower α} {next : α → Lower β}
    (hstep : KeepsSettings step) (hnext : ∀ value, KeepsSettings (next value)) :
    KeepsSettings (step >>= next) := by
  intro state
  have hmiddle := hstep state
  cases hrun : step state with
  | ok value middle =>
    rw [final_of_ok hrun] at hmiddle
    rw [final_bind_of_ok hrun]
    exact (hnext value middle).trans hmiddle
  | error error middle =>
    rw [final_of_error hrun] at hmiddle
    rw [final_bind_of_error hrun]
    exact hmiddle

/-- Marking a line leaves lines marked. -/
private theorem keepsSettings_markLine (span : Span) : KeepsSettings (markLine span) := by
  intro state
  change ((state.emitter.markLine span).lines.enabled, _) = _
  unfold Emitter.markLine
  cases state.emitter.lines.marker? span with
  | none => rfl
  | some marker =>
    change ((state.emitter.lines.mark span).enabled, _) = _
    unfold LineTracker.mark
    split <;> rfl

/-- It is a law of lowering that the settings stay. -/
def keepsSettings : StepLaw where
  Holds := KeepsSettings
  pure _ _ := rfl
  bind := KeepsSettings.bind
  ofExcept outcome _ := by cases outcome <;> rfl
  emit _ _ := rfl
  markLine := keepsSettings_markLine
  takeLabel _ _ := rfl
  bindLabel _ _ := rfl
  takeTable _ := rfl
  addCase _ _ _ := rfl
  addLocal _ _ := rfl

end Lower

/-- Whether no handler changes whether lines are marked or what handlers remember, unless the
arguments of its call do. -/
def Handlers.KeepSettings (handlers : Handlers) : Prop :=
  ∀ entry ∈ handlers.entries, ∀ script head args, (∀ arg ∈ args, Lower.KeepsSettings arg.2) →
    Lower.KeepsSettings (entry.2.lowerCall script head args)

/-- Argument trailers leave the settings alone. -/
theorem Handlers.AreTrailers.keepSettings {handlers : Handlers} (h : handlers.AreTrailers) :
    handlers.KeepSettings :=
  Lower.keepsSettings.handles_of_areTrailers h

/-- The error of an outcome that is one. -/
def errorOf? {ε α : Type} : Except ε α → Option ε
  | .ok _ => none
  | .error error => some error

/-- The code that outcomes amount to: the scripts among them and a diagnostic for every error. -/
def FileCode.ofOutcomes (outcomes : List (Except LoweringError CompiledScript)) : FileCode where
  scripts := outcomes.filterMap Except.toOption
  diagnostics := .ofList ((outcomes.filterMap errorOf?).map LoweringError.diagnostic)

/-- The code of outcomes in order is the code of the first followed by the code of the others. -/
private theorem FileCode.ofOutcomes_append
    (first second : List (Except LoweringError CompiledScript)) :
    ofOutcomes (first ++ second) =
      ⟨(ofOutcomes first).scripts ++ (ofOutcomes second).scripts,
        (ofOutcomes first).diagnostics ++ (ofOutcomes second).diagnostics⟩ := by
  have hdiagnostics : (ofOutcomes (first ++ second)).diagnostics =
      (ofOutcomes first).diagnostics ++ (ofOutcomes second).diagnostics := by
    refine Diagnostics.ext_items ?_
    simp [ofOutcomes]
  rw [← hdiagnostics]
  simp [ofOutcomes]

namespace Generator

/-- A new generator with the settings of another one. -/
def renewed (generator : Generator) : Generator :=
  generator.withLineNumbers generator.emitter.lines.enabled

/-- What declarations give one after the other, each on a new generator with the settings that those
before it left. -/
def outcomesInTurn (generator : Generator) :
    List ScriptDecl → List (Except LoweringError CompiledScript)
  | [] => []
  | decl :: rest =>
    (generator.renewed.script decl).1 :: (generator.renewed.script decl).2.outcomesInTurn rest

variable {generator fresh : Generator}

/-- A script gives the same on a new generator with the same settings, and leaves it the same, in
whatever state the scripts before left the old one. -/
private theorem script_renewed (generator : Generator) (decl : ScriptDecl) :
    generator.renewed.script decl = generator.script decl := by
  have hstart : generator.renewed.start decl = generator.start decl := by
    unfold start
    rw [generator.emitter.start_eq]
    rfl
  have hcontext : generator.renewed.context decl.symbol = generator.context decl.symbol := rfl
  unfold script
  rw [hstart, hcontext]
  rfl

/-- Declarations amount to what each of them gives in turn. -/
private theorem scripts_fst (generator : Generator) (decls : List ScriptDecl) :
    (generator.scripts decls).1 = .ofOutcomes (generator.outcomesInTurn decls) := by
  induction decls generalizing generator with
  | nil => rfl
  | cons decl rest ih =>
    have happend := FileCode.ofOutcomes_append [(generator.script decl).1]
      ((generator.script decl).2.outcomesInTurn rest)
    rw [List.singleton_append, ← ih] at happend
    rw [Generator.scripts, outcomesInTurn, generator.script_renewed, happend]
    simp only
    cases (generator.script decl).1 with
    | ok script => rfl
    | error error => rfl

/-- Declarations that come after others give what they give in turn once the others are compiled. -/
private theorem outcomesInTurn_append (generator : Generator) (first second : List ScriptDecl) :
    generator.outcomesInTurn (first ++ second) =
      generator.outcomesInTurn first ++ (generator.scripts first).2.outcomesInTurn second := by
  induction first generalizing generator with
  | nil => rfl
  | cons decl rest ih =>
    have hlater : (generator.scripts (decl :: rest)).2 =
        ((generator.script decl).2.scripts rest).2 := by
      rw [Generator.scripts]
      simp only
      cases (generator.script decl).1 with
      | ok script => rfl
      | error error => rfl
    rw [List.cons_append, outcomesInTurn, outcomesInTurn, ih, generator.script_renewed, hlater,
      List.cons_append]

/-- Compiling a script keeps the settings if handlers do, whether or not the script fails. -/
private theorem renewed_script_snd (h : generator.handlers.KeepSettings) (decl : ScriptDecl) :
    (generator.script decl).2.renewed = generator.renewed := by
  have hkeeps := @Lower.StepLaw.body Lower.keepsSettings (generator.context decl.symbol) h decl.body
    decl.span (generator.start decl)
  unfold Lower.final at hkeeps
  unfold script
  split
  · next state hrun =>
    rw [hrun] at hkeeps
    exact congrArg (fun settings => { generator with
      emitter := .new settings.1, memory := settings.2 }) hkeeps
  · next error state hrun =>
    rw [hrun] at hkeeps
    exact congrArg (fun settings => { generator with
      emitter := .new settings.1, memory := settings.2 }) hkeeps

/-- If handlers keep the settings, each declaration gives what it gives on the first generator. -/
private theorem outcomesInTurn_eq (h : fresh.handlers.KeepSettings)
    (hsame : generator.renewed = fresh.renewed) (decls : List ScriptDecl) :
    generator.outcomesInTurn decls = decls.map fun decl => (fresh.script decl).1 := by
  induction decls generalizing generator with
  | nil => rfl
  | cons decl rest ih =>
    rw [outcomesInTurn, hsame, fresh.script_renewed, ih (fresh.renewed_script_snd h decl),
      List.map_cons]

end Generator

namespace Config

/-- Files amount to what each of their declarations gives in turn. -/
private theorem emitFiles_eq (generator : Generator) (files : List ScriptFile) :
    emitFiles generator files =
      .ofOutcomes (generator.outcomesInTurn (files.flatMap ScriptFile.scripts)) := by
  induction files generalizing generator with
  | nil => rfl
  | cons file rest ih =>
    rw [List.flatMap_cons, generator.outcomesInTurn_append, FileCode.ofOutcomes_append,
      ← generator.scripts_fst, ← ih]
    rfl

/-- What declarations give one after the other, each on a new generator with the settings that those
before it left. -/
def outcomesInTurn (config : Config) (scope : Scope) (files : List ScriptFile) :
    List (Except LoweringError CompiledScript) :=
  (config.generator scope).outcomesInTurn (files.flatMap ScriptFile.scripts)

/-- What declarations give, each on a new generator with the settings of the configuration. -/
def outcomes (config : Config) (scope : Scope) (files : List ScriptFile) :
    List (Except LoweringError CompiledScript) :=
  (files.flatMap ScriptFile.scripts).map fun decl => ((config.generator scope).script decl).1

/-- If handlers keep the settings, no declaration has an influence on another one. -/
theorem outcomesInTurn_eq {config : Config} (h : config.handlers.KeepSettings) (scope : Scope)
    (files : List ScriptFile) : config.outcomesInTurn scope files = config.outcomes scope files :=
  @Generator.outcomesInTurn_eq _ (config.generator scope) h rfl _

/-- What is left of a compilation once code was emitted. -/
def conclude (config : Config) (code : FileCode) : CompilationOutput :=
  if code.diagnostics.hasErrors then
    { scripts := code.scripts, diagnostics := code.diagnostics, failedPhase := some .emission }
  else if config.pointerChecks then
    let findings := config.checkPointers code.scripts
    { scripts := code.scripts
      diagnostics := code.diagnostics ++ findings
      failedPhase := if findings.hasErrors then some .pointerAnalysis else none }
  else { scripts := code.scripts, diagnostics := code.diagnostics }

/-- A compilation is told by what the declarations give in turn. -/
theorem compile_eq_conclude (config : Config) (scope : Scope) (files : List ScriptFile) :
    config.compile scope files =
      config.conclude (.ofOutcomes (config.outcomesInTurn scope files)) := by
  rw [outcomesInTurn, ← emitFiles_eq]
  rfl

/-- Emission reports nothing exactly if no outcome is an error. -/
private theorem diagnostics_ofOutcomes {outcomes : List (Except LoweringError CompiledScript)}
    (h : ∀ error, .error error ∉ outcomes) : (FileCode.ofOutcomes outcomes).diagnostics = {} := by
  have herrors : outcomes.filterMap errorOf? = [] := by
    rw [List.filterMap_eq_nil_iff]
    intro outcome houtcome
    cases outcome with
    | ok script => rfl
    | error error => exact absurd houtcome (h error)
  unfold FileCode.ofOutcomes
  rw [herrors]
  rfl

/-- An outcome that is an error is reported as one. -/
private theorem hasErrors_ofOutcomes {outcomes : List (Except LoweringError CompiledScript)}
    {error : LoweringError} (h : .error error ∈ outcomes) :
    (FileCode.ofOutcomes outcomes).diagnostics.hasErrors = true := by
  have hmem : error ∈ outcomes.filterMap errorOf? := List.mem_filterMap.mpr ⟨_, h, rfl⟩
  rw [Diagnostics.hasErrors_eq, FileCode.ofOutcomes, Diagnostics.items_ofList, List.any_eq_true]
  exact ⟨_, List.mem_map_of_mem hmem, error.isError_diagnostic⟩

/-- The scripts of a compilation are those that were emitted, whatever phase failed. -/
private theorem scripts_conclude (config : Config) (code : FileCode) :
    (config.conclude code).scripts = code.scripts := by
  unfold conclude
  split
  · rfl
  · split <;> rfl

/-- A compilation succeeds exactly if it reports no error. -/
private theorem isSuccess_conclude (config : Config) (code : FileCode) :
    (config.conclude code).isSuccess = !(config.conclude code).diagnostics.hasErrors := by
  unfold conclude CompilationOutput.isSuccess
  split
  · next herrors => simp [herrors]
  · next hclean =>
    split
    · rw [Bool.not_eq_true] at hclean
      cases hfindings : (config.checkPointers code.scripts).hasErrors <;> simp [hclean, hfindings]
    · simpa using hclean

/-- A compilation is told by what declarations give in turn, each on a new generator with the
settings that those before it left; these are the settings of the configuration if handlers keep
them. It gives the scripts of all declarations that compile, in order. If a declaration fails,
exactly the errors of those that fail are reported and emission failed; otherwise what is reported
is what the check of the pointers finds, if it is wanted, and the check failed if it found an error.
So a compilation succeeds exactly if it reports no error, and it does not depend on how declarations
are grouped into files. -/
theorem compile_isolated (config : Config) (scope : Scope) (files : List ScriptFile) :
    let outcomes := config.outcomesInTurn scope files
    let output := config.compile scope files
    (config.handlers.KeepSettings → outcomes = config.outcomes scope files) ∧
      output.scripts = outcomes.filterMap Except.toOption ∧
      ((∃ error, .error error ∈ outcomes) →
        output.diagnostics.items = (outcomes.filterMap errorOf?).map LoweringError.diagnostic ∧
          output.failedPhase = some .emission) ∧
      ((∀ error, .error error ∉ outcomes) →
        output.diagnostics =
            (if config.pointerChecks then config.checkPointers output.scripts else {}) ∧
          output.failedPhase =
            if output.diagnostics.hasErrors then some .pointerAnalysis else none) ∧
      (output.isSuccess = true ↔
        ∀ diagnostic ∈ output.diagnostics.items, diagnostic.severity ≠ .error) ∧
      ∀ others : List ScriptFile,
        others.flatMap ScriptFile.scripts = files.flatMap ScriptFile.scripts →
          config.compile scope others = output := by
  intro outcomes output
  have houtput : output = config.conclude (.ofOutcomes outcomes) :=
    config.compile_eq_conclude scope files
  have hscripts : output.scripts = outcomes.filterMap Except.toOption := by
    rw [houtput, scripts_conclude]
    rfl
  refine ⟨fun hkeep => outcomesInTurn_eq hkeep scope files, hscripts, fun ⟨error, herror⟩ => ?_,
    fun hnone => ?_, ?_, fun others hothers => ?_⟩
  · rw [houtput, conclude, if_pos (hasErrors_ofOutcomes herror)]
    exact ⟨Diagnostics.items_ofList _, rfl⟩
  · have hdiagnostics := diagnostics_ofOutcomes hnone
    rw [hscripts, houtput, conclude, hdiagnostics, if_neg (by decide)]
    cases config.pointerChecks with
    | true => exact ⟨rfl, rfl⟩
    | false => exact ⟨rfl, rfl⟩
  · rw [houtput, isSuccess_conclude, Bool.not_eq_true', ← Bool.not_eq_true,
      Diagnostics.hasErrors_eq, List.any_eq_true]
    simp [Diagnostic.isError]
  · rw [houtput, compile_eq_conclude]
    simp only [outcomes, outcomesInTurn, hothers]

/-- The options of a compilation that tells a command the types of its arguments. -/
private def sayConfig : Config := { handlers := ⟨[("say", .argumentTrailer 0)]⟩ }

/-- A call that says hello on a line. -/
private def sayHello (line : Nat) : Stmt :=
  let say : CallHead := ⟨.command, "say", false, .unit, some (.command ⟨"say", [], []⟩), ⟨line, 1⟩⟩
  .evaluate (.call say [.literal (.string "hello") .string none ⟨line, 5⟩]) ⟨line, 1⟩

/-- A script that gives up in the second case of a switch, where nothing is bound to a name. -/
private def breakOff : ScriptDecl :=
  let key (value : Int32) : Expr := .literal (.int value) .int none .unknown
  let nameless : Stmt := .evaluate (.identifier "nobody" .int none ⟨6, 3⟩) ⟨6, 3⟩
  ⟨⟨.proc, "break_off", [], []⟩, [],
    [.switch .int (key 1) [.mk [key 1] false [sayHello 5] ⟨4, 1⟩,
      .mk [key 2] false [nameless] ⟨6, 1⟩] ⟨4, 1⟩], ⟨3, 1⟩⟩

/-- A script that says hello. -/
private def speak (name : String) (line : Nat) : ScriptDecl :=
  ⟨⟨.proc, name, [], []⟩, [], [sayHello (line + 1)], ⟨line, 1⟩⟩

/-- Two scripts that say hello, around one that gives up. -/
private def speakAround : List ScriptFile :=
  [⟨"first", [speak "greet" 1, breakOff]⟩, ⟨"second", [speak "part" 1]⟩]

theorem compile_isolated_speakAround :
    sayConfig.handlers.KeepSettings ∧
      (sayConfig.compile {} speakAround).failedPhase = some .emission ∧
      (sayConfig.compile {} speakAround).scripts.map (·.symbol.name) = ["greet", "part"] ∧
      sayConfig.compile {} [⟨"only", speakAround.flatMap ScriptFile.scripts⟩] =
        sayConfig.compile {} speakAround := by
  have hhandlers : sayConfig.handlers.KeepSettings :=
    Handlers.AreTrailers.keepSettings (by simp [Handlers.AreTrailers, sayConfig])
  have hfails : ∃ error, .error error ∈ sayConfig.outcomes {} speakAround :=
    ⟨⟨.unresolved .identifier "nobody", ⟨6, 3⟩⟩, by decide +kernel⟩
  obtain ⟨houtcomes, hscripts, hfailed, -, -, hgrouping⟩ :=
    compile_isolated sayConfig {} speakAround
  rw [houtcomes hhandlers] at hscripts hfailed
  refine ⟨hhandlers, (hfailed hfails).2, ?_, hgrouping _ (List.append_nil _)⟩
  rw [hscripts]
  decide +kernel

/-- The options of a compilation with a handler that goes on with an emitter that marks no lines. -/
private def unmarkingConfig : Config :=
  let unmarking : Handler :=
    { lower := fun _ head _ lowerArgs => do
        modify fun state => { state with emitter := .new false }
        lowerArgs
        Lower.invoke head }
  { handlers := ⟨[("say", unmarking)]⟩ }

/-- The options of a compilation with a handler that pushes how many calls it lowered before. -/
private def countingConfig : Config :=
  let counting : Handler :=
    { lower := fun _ head _ lowerArgs => do
        lowerArgs
        let calls := (← get).memory
        Lower.emit (.pushInt (.ofNat calls.length))
        modify fun state => { state with memory := head.name :: calls }
        Lower.invoke head }
  { handlers := ⟨[("say", counting)]⟩ }

/-- Two scripts that say hello, around one that just leaves. -/
private def speakAndWait : List ScriptFile :=
  let wait : ScriptDecl := ⟨⟨.proc, "wait", [], []⟩, [], [.leave [] ⟨2, 1⟩], ⟨1, 1⟩⟩
  [⟨"only", [speak "greet" 1, wait, speak "part" 1]⟩]

theorem not_isolated_speakAndWait :
    (unmarkingConfig.compile {} speakAndWait).scripts ≠
        (unmarkingConfig.outcomes {} speakAndWait).filterMap Except.toOption ∧
      (countingConfig.compile {} speakAndWait).scripts ≠
        (countingConfig.outcomes {} speakAndWait).filterMap Except.toOption := by
  decide +kernel

end Config

end ScriptBackend

import ScriptBackend.Code.Program
import ScriptBackend.Lowering.Stmt

/-!
# Code generation

A generator compiles scripts one after the other with one emitter, which every script starts anew,
and with handlers that may remember what they did.
A script that fails is reported and left out; the scripts around it are compiled all the same.
-/

namespace ScriptBackend

/-- What scripts are compiled with. -/
structure Generator where
  /-- Symbols for names that a tree left open. -/
  scope : Scope := {}
  /-- Commands with a handler. -/
  handlers : Handlers := {}
  /-- The emitter, as the script before left it. -/
  emitter : Emitter := .new true
  /-- What handlers remember of the scripts before. -/
  memory : List String := []

/-- The code of a file: every script that was compiled, and a diagnostic for every other. -/
structure FileCode where
  /-- The compiled scripts, in the order of their declarations. -/
  scripts : List CompiledScript := []
  /-- The errors of the scripts that failed. -/
  diagnostics : Diagnostics := {}
  deriving DecidableEq, Repr

/-- Whether every script of the file was compiled. -/
def FileCode.isSuccess (code : FileCode) : Bool := !code.diagnostics.hasErrors

namespace Generator

/-- A generator that marks lines or does not. -/
def withLineNumbers (generator : Generator) (enabled : Bool) : Generator :=
  { generator with emitter := .new enabled }

/-- The generator with a handler for one more command. -/
def withHandler (generator : Generator) (command : String) (handler : Handler) : Generator :=
  { generator with handlers := generator.handlers.insert command handler }

/-- The context in which a script is lowered. -/
def context (generator : Generator) (script : ScriptSymbol) : Context :=
  { script, scope := generator.scope, handlers := generator.handlers }

/-- The state in which the lowering of a script starts. -/
def start (generator : Generator) (decl : ScriptDecl) : LowerState where
  emitter := generator.emitter.start
  locals := .ofSymbols decl.parameters []
  memory := generator.memory

/-- Compile one script. -/
def script (generator : Generator) (decl : ScriptDecl) :
    Except LoweringError CompiledScript × Generator :=
  match Lower.body (generator.context decl.symbol) decl.body decl.span (generator.start decl) with
  | .ok () state =>
    (.ok ⟨decl.symbol, state.emitter.blocks, state.emitter.tables, state.locals⟩,
      { generator with emitter := state.emitter.clear, memory := state.memory })
  | .error error state =>
    (.error error, { generator with emitter := state.emitter, memory := state.memory })

/-- A script that is compiled is what the emitter and the table of locals hold once its body is
lowered. -/
theorem exists_final_of_script {generator : Generator} {decl : ScriptDecl}
    {script : CompiledScript} (h : (generator.script decl).1 = .ok script) :
    ∃ final : LowerState,
      Lower.body (generator.context decl.symbol) decl.body decl.span (generator.start decl) =
        .ok () final ∧
      script = ⟨decl.symbol, final.emitter.blocks, final.emitter.tables, final.locals⟩ := by
  unfold Generator.script at h
  split at h
  · next final hbody =>
    cases h
    exact ⟨final, hbody, rfl⟩
  · cases h

/-- Compile declarations in order. -/
def scripts (generator : Generator) : List ScriptDecl → FileCode × Generator
  | [] => ({}, generator)
  | decl :: rest =>
    let (outcome, generator) := generator.script decl
    let (code, generator) := generator.scripts rest
    match outcome with
    | .ok script => ({ code with scripts := script :: code.scripts }, generator)
    | .error error =>
      ({ code with diagnostics := .push {} error.diagnostic ++ code.diagnostics }, generator)

/-- Compile the declarations of a file. -/
def file (generator : Generator) (file : ScriptFile) : FileCode × Generator :=
  generator.scripts file.scripts

end Generator

end ScriptBackend

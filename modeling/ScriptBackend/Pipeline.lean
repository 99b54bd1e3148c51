import ScriptBackend.Checker.Basic
import ScriptBackend.Generator

/-!
# Pipeline

A compilation first emits the code of every script and then checks the pointers of all scripts
together. The check runs only if every script was emitted, and only if it is wanted. The phase that
reported an error is the one that failed.
-/

namespace ScriptBackend

/-- The options of a compilation. -/
structure Config where
  /-- Whether lines are marked. -/
  lineNumbers : Bool := true
  /-- Whether pointers are checked. -/
  pointerChecks : Bool := true
  /-- The contracts of commands. -/
  contracts : Contracts := {}
  /-- Commands with a handler. -/
  handlers : Handlers := {}
  /-- What handlers remember of earlier compilations. -/
  memory : List String := []

/-- The options as they read in a dump. -/
def Config.text (config : Config) : String :=
  "CompilerConfig \x7b line_numbers: " ++ toString config.lineNumbers ++
    ", pointer_checks: " ++ toString config.pointerChecks ++
    ", command_pointers: " ++ toString config.contracts.size ++
    ", dynamic_commands: [" ++ ", ".intercalate (config.handlers.names.map Text.quote) ++ "] \x7d"

/-- A phase of a compilation. -/
inductive Phase where
  /-- Code is emitted. -/
  | emission
  /-- Pointers are checked. -/
  | pointerAnalysis
  deriving DecidableEq, Repr

/-- The name of a phase. -/
def Phase.name : Phase → String
  | .emission => "emission"
  | .pointerAnalysis => "pointer analysis"

/-- A compilation that failed. -/
structure CompilationFailed where
  /-- The phase that failed. -/
  phase : Phase
  /-- The number of errors. -/
  errors : Nat
  /-- All diagnostics. -/
  diagnostics : Diagnostics
  deriving DecidableEq, Repr

/-- The message of a failed compilation. -/
def CompilationFailed.message (failure : CompilationFailed) : String :=
  failure.phase.name ++ " failed with " ++ toString failure.errors ++ " error(s)"

/-- All that a compilation gives. -/
structure CompilationOutput where
  /-- The scripts that were emitted, in file and then declaration order. -/
  scripts : List CompiledScript := []
  /-- The diagnostics of all phases that ran. -/
  diagnostics : Diagnostics := {}
  /-- The phase that failed, if one did. -/
  failedPhase : Option Phase := none
  deriving DecidableEq, Repr

namespace CompilationOutput

/-- Whether no phase failed. -/
def isSuccess (output : CompilationOutput) : Bool := output.failedPhase.isNone

/-- The first script of a name. -/
def script? (output : CompilationOutput) (name : String) : Option CompiledScript :=
  output.scripts.find? fun script => script.symbol.name = name

/-- The scripts of a compilation that succeeded, or why it failed. -/
def result (output : CompilationOutput) : Except CompilationFailed (List CompiledScript) :=
  match output.failedPhase with
  | none => .ok output.scripts
  | some phase => .error ⟨phase, output.diagnostics.errorCount, output.diagnostics⟩

end CompilationOutput

namespace Config

/-- Check the pointers of scripts that were already emitted. -/
def checkPointers (config : Config) (scripts : List CompiledScript) : Diagnostics :=
  (Query.checkAll ((Checker.new config.contracts).addAll scripts)).1

/-- The generator that the options ask for. -/
def generator (config : Config) (scope : Scope) : Generator :=
  { scope, handlers := config.handlers, emitter := .new config.lineNumbers,
    memory := config.memory }

/-- Emit the code of files in order. -/
def emitFiles (generator : Generator) : List ScriptFile → FileCode
  | [] => {}
  | file :: rest =>
    let (code, generator) := generator.file file
    let others := emitFiles generator rest
    ⟨code.scripts ++ others.scripts, code.diagnostics ++ others.diagnostics⟩

/-- Compile files as one unit. -/
def compile (config : Config) (scope : Scope) (files : List ScriptFile) : CompilationOutput :=
  let code := emitFiles (config.generator scope) files
  if code.diagnostics.hasErrors then
    { scripts := code.scripts, diagnostics := code.diagnostics, failedPhase := some .emission }
  else if config.pointerChecks then
    let findings := config.checkPointers code.scripts
    { scripts := code.scripts
      diagnostics := code.diagnostics ++ findings
      failedPhase := if findings.hasErrors then some .pointerAnalysis else none }
  else { scripts := code.scripts, diagnostics := code.diagnostics }

end Config

end ScriptBackend

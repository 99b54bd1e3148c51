import ScriptBackend.Code.Slots
import ScriptBackend.Emitter.Basic
import ScriptBackend.Lowering.Error
import ScriptBackend.Named
import ScriptBackend.Symbol.Scope

/-!
# Lowering steps

Lowering walks a tree and emits code as it goes. A step takes the emitter and the slots of the
script and gives them back changed, also when it fails: what was emitted before an error stays. The
context of a script does not change while it is lowered. A command may have a handler that lowers
its calls in place of the ordinary way; what handlers remember goes from step to step, too.
-/

namespace ScriptBackend

/-- What lowering changes. -/
structure LowerState where
  /-- The code laid out so far. -/
  emitter : Emitter
  /-- The slots taken so far. -/
  locals : LocalTable := {}
  /-- What handlers remember of earlier calls, in a form of their own. -/
  memory : List String := []
  deriving DecidableEq, Repr

/-- A step of lowering; its state survives an error. -/
abbrev Lower := EStateM LoweringError LowerState

namespace Lower

/-- Give up because of a node. -/
def fail {α : Type} (cause : LoweringCause) (span : Span) : Lower α :=
  fun state => .error ⟨cause, span⟩ state

/-- The value of a computation that changes nothing, or its error. -/
def ofExcept {α : Type} : Except LoweringError α → Lower α
  | .ok value => fun state => .ok value state
  | .error error => fun state => .error error state

/-- Add an instruction to the open block. -/
def emit (instruction : Instruction) : Lower Unit :=
  fun state => .ok () { state with emitter := state.emitter.emit instruction }

/-- Add the instruction that a computation gives, or fail with it. -/
def emitResult (instruction : Except LoweringError Instruction) : Lower Unit := do
  emit (← ofExcept instruction)

/-- Take a label of a base name. -/
def takeLabel (base : String) : Lower Label :=
  fun state => .ok (state.emitter.nextLabel base)
    { state with emitter := state.emitter.takeLabel base }

/-- Bind a label, which opens its block. -/
def bindLabel (label : Label) : Lower Unit :=
  fun state => .ok () { state with emitter := state.emitter.bind label }

/-- Mark the line of a position where that is needed. -/
def markLine (span : Span) : Lower Unit :=
  fun state => .ok () { state with emitter := state.emitter.markLine span }

/-- Take the number of a new switch table. -/
def takeTable : Lower Nat :=
  fun state => .ok state.emitter.nextTable { state with emitter := state.emitter.addTable }

/-- Add a case to a switch table. -/
def addCase (table : Nat) (case : TableCase) : Lower Unit :=
  fun state => .ok () { state with emitter := state.emitter.addCase table case }

/-- Give a declared local its slot. -/
def addLocal (symbol : LocalSymbol) : Lower Unit :=
  fun state => .ok () { state with locals := state.locals.addLocal symbol }

/-- Steps one after the other. -/
def inOrder : List (Lower Unit) → Lower Unit
  | [] => pure ()
  | first :: rest => do
    first
    inOrder rest

/-- Two steps succeed together exactly when the first succeeds and the second succeeds from the
state that the first leaves. -/
theorem bind_eq_ok_iff {α β : Type} {step : Lower α} {next : α → Lower β}
    {start final : LowerState} {result : β} :
    (step >>= next) start = .ok result final ↔
      ∃ value middle, step start = .ok value middle ∧ next value middle = .ok result final := by
  change EStateM.bind step next start = _ ↔ _
  unfold EStateM.bind
  cases h : step start with
  | ok value middle =>
    constructor
    · exact fun hnext => ⟨value, middle, rfl, hnext⟩
    · rintro ⟨_, _, ⟨⟩, hnext⟩
      exact hnext
  | error error middle =>
    constructor
    · intro hnext
      cases hnext
    · rintro ⟨_, _, ⟨⟩, _⟩

end Lower

/-- A way to lower the calls of one command. It is given the script that is being lowered, the call,
its arguments, each with the step that lowers it, and the step that lowers all of them from left to
right, and emits the whole call. It may do anything with the state: put another emitter in place of
the one it finds, or remember what it likes for later calls. -/
structure Handler where
  /-- Lower one call. -/
  lower : ScriptSymbol → CallHead → List (Expr × Lower Unit) → Lower Unit → Lower Unit

/-- Lower a call whose arguments come with the steps that lower them. -/
def Handler.lowerCall (handler : Handler) (script : ScriptSymbol) (head : CallHead)
    (args : List (Expr × Lower Unit)) : Lower Unit :=
  handler.lower script head args (Lower.inOrder (args.map Prod.snd))

/-- Handlers by the name of the command. -/
structure Handlers where
  /-- Each command's handler; a name occurs once. -/
  entries : List (String × Handler) := []

namespace Handlers

/-- Give a command a handler, in place of any earlier one. -/
def insert (handlers : Handlers) (command : String) (handler : Handler) : Handlers :=
  ⟨assign handlers.entries command handler⟩

/-- The handlers given to commands in order. -/
def ofList (entries : List (String × Handler)) : Handlers :=
  entries.foldl (fun handlers entry => handlers.insert entry.1 entry.2) {}

/-- The handler of a command. -/
def find? (handlers : Handlers) (command : String) : Option Handler :=
  handlers.entries.lookup command

/-- The names of the commands with a handler, in ascending order. -/
def names (handlers : Handlers) : List String :=
  (handlers.entries.map Prod.fst).mergeSort fun s t => decide (s ≤ t)

end Handlers

/-- What lowering reads. -/
structure Context where
  /-- The script that is being lowered. -/
  script : ScriptSymbol
  /-- Symbols for names that the tree left open. -/
  scope : Scope := {}
  /-- Commands with a handler. -/
  handlers : Handlers := {}

end ScriptBackend

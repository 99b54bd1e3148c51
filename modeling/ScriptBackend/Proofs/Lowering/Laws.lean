import ScriptBackend.Proofs.Lowering.WellFormed

/-!
# Laws of lowering steps

Lowering is put together from few steps: instructions that mark no line are emitted, lines are
marked, labels are taken and bound, switch tables are filled and slots are given out. A property
that holds of these steps and of what is composed of steps that have it is a law, and a law holds of
the lowering of every tree. A handler is not put together from known steps; a law must hold of what
it does with arguments for which the law holds, as it does where the handler pushes an argument
trailer.
-/

namespace ScriptBackend

/-- An instruction that a comparison gives marks no line. -/
theorem isMarker_eq_false_of_comparisonBranch {comparison : Comparison} {ty : Ty}
    {label : Label} {span : Span} {branch : Instruction}
    (h : comparisonBranch comparison ty label span = .ok branch) :
    branch.opcode.isMarker = false := by
  obtain ⟨opcode, -, hconditional, rfl⟩ := exists_opcode_of_comparisonBranch h
  cases opcode <;> first | rfl | cases hconditional

namespace Lower

/-- The state that a step leaves, also when it fails. -/
def final {α : Type} (step : Lower α) (state : LowerState) : LowerState :=
  match step state with
  | .ok _ state | .error _ state => state

section Final

variable {α β : Type} {step : Lower α} {next : α → Lower β} {state middle : LowerState}

/-- A step that succeeds leaves the state that it gives. -/
theorem final_of_ok {value : α} (h : step state = .ok value middle) :
    final step state = middle := by
  rw [final, h]

/-- A step that fails leaves the state in which it failed. -/
theorem final_of_error {error : LoweringError} (h : step state = .error error middle) :
    final step state = middle := by
  rw [final, h]

/-- Where the first of two steps succeeds they leave what the second leaves. -/
theorem final_bind_of_ok {value : α} (h : step state = .ok value middle) :
    final (step >>= next) state = final (next value) middle := by
  change (match EStateM.bind step next state with | .ok _ state | .error _ state => state) = _
  rw [EStateM.bind, h]
  rfl

/-- Where the first of two steps fails they leave what it leaves. -/
theorem final_bind_of_error {error : LoweringError} (h : step state = .error error middle) :
    final (step >>= next) state = middle := by
  change (match EStateM.bind step next state with | .ok _ state | .error _ state => state) = _
  rw [EStateM.bind, h]

end Final

/-- A property of lowering steps that holds of the basic steps and of their compositions. -/
structure StepLaw where
  /-- Whether a step has the property. -/
  Holds : {α : Type} → Lower α → Prop
  pure : ∀ {α : Type} (value : α), Holds (pure value)
  bind : ∀ {α β : Type} {step : Lower α} {next : α → Lower β},
    Holds step → (∀ value, Holds (next value)) → Holds (step >>= next)
  ofExcept : ∀ {α : Type} (outcome : Except LoweringError α), Holds (ofExcept outcome)
  /-- An instruction that is emitted as such never marks a line. -/
  emit : ∀ {instruction : Instruction}, instruction.opcode.isMarker = false →
    Holds (emit instruction)
  markLine : ∀ span, Holds (markLine span)
  takeLabel : ∀ base, Holds (takeLabel base)
  bindLabel : ∀ label, Holds (bindLabel label)
  takeTable : Holds takeTable
  addCase : ∀ table case, Holds (addCase table case)
  addLocal : ∀ symbol, Holds (addLocal symbol)

namespace StepLaw

variable (law : StepLaw)

/-- Whether every handler does with arguments that have the property what has it, too. -/
def Handles (handlers : Handlers) : Prop :=
  ∀ entry ∈ handlers.entries, ∀ script head args, (∀ arg ∈ args, law.Holds arg.2) →
    law.Holds (entry.2.lowerCall script head args)

/-- Two steps in order have the property if both do. -/
private theorem both {α : Type} {first : Lower Unit} {second : Lower α} (hfirst : law.Holds first)
    (hsecond : law.Holds second) : law.Holds (first >>= fun _ => second) :=
  law.bind hfirst fun _ => hsecond

/-- A step after a computation has the property if it has it for the value. -/
private theorem ofExcept_bind {α β : Type} {outcome : Except LoweringError α}
    {next : α → Lower β} (h : ∀ value, outcome = .ok value → law.Holds (next value)) :
    law.Holds (Lower.ofExcept outcome >>= next) := by
  cases outcome with
  | ok value => exact h value rfl
  | error error => exact law.ofExcept (.error error)

private theorem fail {α : Type} (cause : LoweringCause) (span : Span) :
    law.Holds (Lower.fail cause span : Lower α) :=
  law.ofExcept (.error ⟨cause, span⟩)

private theorem emitResult {outcome : Except LoweringError Instruction}
    (h : ∀ instruction, outcome = .ok instruction → instruction.opcode.isMarker = false) :
    law.Holds (Lower.emitResult outcome) :=
  law.ofExcept_bind fun instruction hinstruction => law.emit (h instruction hinstruction)

private theorem emitPlain {outcome : Except LoweringError Instruction} (h : PlainResult outcome) :
    law.Holds (Lower.emitResult outcome) :=
  law.emitResult fun instruction hinstruction => (h instruction hinstruction).isMarker_eq_false

private theorem emitResults {outcomes : List (Except LoweringError Instruction)}
    (h : ∀ outcome ∈ outcomes, PlainResult outcome) : law.Holds (Lower.emitResults outcomes) := by
  induction outcomes with
  | nil => exact law.pure ()
  | cons first rest ih =>
    rw [List.forall_mem_cons] at h
    exact law.both (law.emitPlain h.1) (ih h.2)

/-- Expressions are lowered in order by steps that have the property if each has it. -/
private theorem inOrder {args : List (Expr × Lower Unit)} (h : ∀ arg ∈ args, law.Holds arg.2) :
    law.Holds (Lower.inOrder (args.map Prod.snd)) := by
  induction args with
  | nil => exact law.pure ()
  | cons first rest ih =>
    rw [List.forall_mem_cons] at h
    exact law.both h.1 (ih h.2)

/-- An argument trailer is pushed by steps that have the property. -/
theorem handles_of_areTrailers {handlers : Handlers} (h : handlers.AreTrailers) :
    law.Handles handlers := by
  intro entry hentry script head args hargs
  obtain ⟨fixed, hfixed⟩ := h entry hentry
  rw [hfixed]
  refine law.bind (law.ofExcept _) fun codes =>
    law.both (law.inOrder hargs) (law.both (law.emit rfl) ?_)
  exact law.emitPlain (plainResult_invocation head)

variable {law} {context : Context}

/-- A call has the property if its arguments do. -/
private theorem callWith (hhandlers : law.Handles context.handlers) (head : CallHead)
    {args : List (Expr × Lower Unit)} (hargs : ∀ arg ∈ args, law.Holds arg.2) :
    law.Holds (Lower.callWith context head args) := by
  unfold Lower.callWith handlerOf?
  have hinvoke := law.both (law.inOrder hargs) (law.emitPlain (plainResult_invocation head))
  cases head.kind with
  | command =>
    cases hfound : context.handlers.find? head.name with
    | none => exact hinvoke
    | some handler =>
      obtain ⟨entry, hentry, rfl⟩ : ∃ entry ∈ context.handlers.entries, entry.2 = handler := by
        obtain ⟨before, after, hentries, -⟩ := List.lookup_eq_some_iff.mp hfound
        exact ⟨(head.name, handler), by simp [hentries], rfl⟩
      exact hhandlers entry hentry _ head args hargs
  | proc => exact hinvoke
  | jump => exact hinvoke

mutual

/-- A law holds of the lowering of every value expression. -/
theorem expr (hhandlers : law.Handles context.handlers) (place : Place) :
    ∀ e : Expr, law.Holds (Lower.expr context place e)
  | .literal value ty symbol span => by
    rw [Lower.expr]
    exact law.emitPlain (plainResult_push value ty symbol span)
  | .identifier name _ symbol span => by
    rw [Lower.expr]
    exact law.emitPlain (plainResult_useOfName name symbol span)
  | .localVar name _ symbol span => by
    rw [Lower.expr]
    exact law.emitPlain (plainResult_onLocal rfl name symbol span)
  | .element name index _ symbol span => by
    rw [Lower.expr]
    refine law.ofExcept_bind fun push hpush => law.both (expr hhandlers .value index) ?_
    exact law.emit (plainResult_onLocal rfl name symbol span push hpush).isMarker_eq_false
  | .gameVar name secondary _ symbol span => by
    rw [Lower.expr]
    exact law.emitPlain (plainResult_onGame (by cases secondary <;> rfl) name symbol span)
  | .constant _ _ value _ => by
    rw [Lower.expr]
    exact expr hhandlers .value value
  | .openConstant name _ span => by
    rw [Lower.expr]
    exact law.fail _ _
  | .condition _ _ _ span => by
    rw [Lower.expr]
    exact law.fail _ _
  | .arithmetic left op right ty span => by
    cases place with
    | value =>
      rw [Lower.expr]
      exact law.fail _ _
    | operand =>
      rw [Lower.expr]
      exact law.both (expr hhandlers .operand left) (law.both (expr hhandlers .operand right)
        (law.emitPlain (plainResult_arithmeticCode op ty span)))
  | .calculation inner _ _ => by
    rw [Lower.expr]
    exact expr hhandlers .operand inner
  | .paren inner _ => by
    rw [Lower.expr]
    exact expr hhandlers place inner
  | .call head args => by
    rw [Lower.expr]
    exact callWith hhandlers head (withSteps hhandlers args)
  | .joined parts span => by
    rw [Lower.expr]
    exact law.both (law.inOrder (withSteps hhandlers parts)) (law.emit rfl)

/-- A law holds of each of the steps that lower value expressions. -/
private theorem withSteps (hhandlers : law.Handles context.handlers) :
    ∀ es : List Expr, ∀ arg ∈ Lower.withSteps context es, law.Holds arg.2
  | [] => by
    rw [Lower.withSteps]
    simp
  | first :: rest => by
    rw [Lower.withSteps, List.forall_mem_cons]
    exact ⟨expr hhandlers .value first, withSteps hhandlers rest⟩

end

/-- A law holds of the lowering of value expressions in order. -/
theorem exprs (hhandlers : law.Handles context.handlers) (es : List Expr) :
    law.Holds (Lower.exprs context es) :=
  law.inOrder (withSteps hhandlers es)

/-- A law holds of the lowering of every condition. -/
theorem condition (hhandlers : law.Handles context.handlers) (test : Expr)
    (onTrue onFalse : Label) : law.Holds (Lower.condition context test onTrue onFalse) := by
  fun_induction Lower.condition context test onTrue onFalse with
  | case1 left right span onTrue onFalse ihLeft ihRight =>
    exact law.bind (law.takeLabel _) fun next =>
      law.both (ihLeft next) (law.both (law.bindLabel next) ihRight)
  | case2 left right span onTrue onFalse ihLeft ihRight =>
    exact law.bind (law.takeLabel _) fun next =>
      law.both (ihLeft next) (law.both (law.bindLabel next) ihRight)
  | case3 left comparison right span onTrue onFalse =>
    refine law.both (expr hhandlers .value left) (law.both (expr hhandlers .value right) ?_)
    exact law.both (law.emitResult fun _ => isMarker_eq_false_of_comparisonBranch) (law.emit rfl)
  | case4 inner span onTrue onFalse ih => exact ih
  | case5 other => exact law.fail _ _

/-- A law holds of the lowering of every assignment. -/
theorem assign (hhandlers : law.Handles context.handlers) (targets values : List Expr) :
    law.Holds (Lower.assign context targets values) := by
  cases targets with
  | nil => exact law.pure ()
  | cons first rest =>
    unfold Lower.assign
    simp only
    cases rest.find? Expr.isElement with
    | some element => exact law.fail _ _
    | none =>
      have hstores : law.Holds (Lower.emitResults ((first :: rest).reverse.map Expr.store)) :=
        law.emitResults fun outcome houtcome => by
          obtain ⟨target, -, rfl⟩ := List.mem_map.mp houtcome
          exact plainResult_store target
      have hvalues := law.both (exprs hhandlers values) hstores
      cases first with
      | element name index ty symbol span => exact law.both (expr hhandlers .value index) hvalues
      | _ => exact hvalues

/-- A law holds of the lowering of every declaration. -/
private theorem declare (hhandlers : law.Handles context.handlers) (name : String) (ty : Ty)
    (symbol : Option Symbol) (initial : Option Expr) (span : Span) :
    law.Holds (Lower.declare context name ty symbol initial span) := by
  refine law.bind (law.ofExcept _) fun declared => ?_
  have hstore := law.both (law.addLocal declared) (law.emit (rfl :
    ((Instruction.onSymbol .popLocal (.localVar declared)).atSpan span).opcode.isMarker = false))
  cases initial with
  | some value => exact law.both (expr hhandlers .value value) hstore
  | none => exact law.both (law.emitPlain (plainResult_defaultPush ty span)) hstore

/-- A law holds of the lowering of every declaration of an array. -/
private theorem declareArray (hhandlers : law.Handles context.handlers) (name : String) (ty : Ty)
    (symbol : Option Symbol) (size : Expr) (span : Span) :
    law.Holds (Lower.declareArray context name ty symbol size span) := by
  refine law.bind (law.ofExcept _) fun declared => ?_
  cases ty.isArray with
  | true =>
    exact law.both (expr hhandlers .value size) (law.both (law.addLocal declared) (law.emit rfl))
  | false => exact law.fail (.unsupportedType ty .arrayDeclaration) span

/-- A law holds of the lowering of every expression whose values are dropped. -/
private theorem evaluate (hhandlers : law.Handles context.handlers) (value : Expr) (span : Span) :
    law.Holds (Lower.evaluate context value span) := by
  refine law.both (expr hhandlers .value value) (law.emitResults fun outcome houtcome => ?_)
  obtain ⟨ty, -, rfl⟩ := List.mem_map.mp houtcome
  exact plainResult_discard ty span

/-- A law holds of taking the label of a case. -/
private theorem caseLabel (fallback : Option Label) (isDefault : Bool) :
    law.Holds (Lower.caseLabel fallback isDefault) := by
  cases fallback <;> cases isDefault <;> first | exact law.takeLabel _ | exact law.pure _

/-- A law holds of setting aside the label of a default case. -/
private theorem setAside (cases : List Case) : law.Holds (Lower.setAside cases) := by
  unfold Lower.setAside
  split
  · exact law.bind (law.takeLabel _) fun label => law.pure (some label)
  · exact law.pure none

/-- A law holds of passing the cases of a switch. -/
private theorem skip (cases : List Case) (done : Label) (fallback : Option Label) (span : Span) :
    law.Holds (Lower.skip cases done fallback span) := by
  unfold Lower.skip
  split
  · exact law.pure ()
  · exact law.emit rfl

mutual

/-- A law holds of the lowering of every statement. -/
theorem stmt (hhandlers : law.Handles context.handlers) :
    ∀ s : Stmt, law.Holds (Lower.stmt context s)
  | .block body _ => by
    rw [Lower.stmt]
    exact stmts hhandlers body
  | .ifThen test onTrue span => by
    rw [Lower.stmt]
    refine law.both (law.markLine span) ?_
    refine law.bind (law.takeLabel _) fun whenTrue => law.bind (law.takeLabel _) fun done => ?_
    refine law.both (condition hhandlers test whenTrue done) (law.both (law.bindLabel whenTrue) ?_)
    exact law.both (stmt hhandlers onTrue) (law.both (law.emit rfl) (law.bindLabel done))
  | .ifElse test onTrue onFalse span => by
    rw [Lower.stmt]
    refine law.both (law.markLine span) ?_
    refine law.bind (law.takeLabel _) fun whenTrue => law.bind (law.takeLabel _) fun whenFalse => ?_
    refine law.bind (law.takeLabel _) fun done => ?_
    refine law.both (condition hhandlers test whenTrue whenFalse)
      (law.both (law.bindLabel whenTrue) ?_)
    refine law.both (stmt hhandlers onTrue) (law.both (law.emit rfl) ?_)
    refine law.both (law.bindLabel whenFalse) (law.both (stmt hhandlers onFalse) ?_)
    exact law.both (law.emit rfl) (law.bindLabel done)
  | .whileLoop test body span => by
    rw [Lower.stmt]
    refine law.both (law.markLine span) ?_
    refine law.bind (law.takeLabel _) fun start => law.bind (law.takeLabel _) fun inside => ?_
    refine law.bind (law.takeLabel _) fun done => law.both (law.bindLabel start) ?_
    refine law.both (condition hhandlers test inside done) (law.both (law.bindLabel inside) ?_)
    exact law.both (stmt hhandlers body) (law.both (law.emit rfl) (law.bindLabel done))
  | .switch ty subject cases span => by
    rw [stmt_switch]
    refine law.both (law.markLine span) (law.bind law.takeTable fun table => ?_)
    refine law.bind (law.takeLabel _) fun done => law.bind (setAside cases) fun fallback => ?_
    refine law.both (expr hhandlers .value subject) (law.both (law.emit rfl) ?_)
    refine law.both (skip cases done fallback span) (law.both ?_ (law.bindLabel done))
    exact switchCases hhandlers table done fallback cases
  | .leave values span => by
    rw [Lower.stmt]
    exact law.both (law.markLine span) (law.both (exprs hhandlers values) (law.emit rfl))
  | .assign targets values span => by
    rw [Lower.stmt]
    exact law.both (law.markLine span) (assign hhandlers targets values)
  | .declare name ty symbol initial span => by
    rw [Lower.stmt]
    exact law.both (law.markLine span) (declare hhandlers name ty symbol initial span)
  | .declareArray name ty symbol size span => by
    rw [Lower.stmt]
    exact law.both (law.markLine span) (declareArray hhandlers name ty symbol size span)
  | .evaluate value span => by
    rw [Lower.stmt]
    exact law.both (law.markLine span) (evaluate hhandlers value span)
  | .empty span => by
    rw [Lower.stmt]
    exact law.markLine span

/-- A law holds of the lowering of statements in order. -/
theorem stmts (hhandlers : law.Handles context.handlers) :
    ∀ ss : List Stmt, law.Holds (Lower.stmts context ss)
  | [] => by
    rw [Lower.stmts]
    exact law.pure ()
  | first :: rest => by
    rw [Lower.stmts]
    exact law.both (stmt hhandlers first) (stmts hhandlers rest)

/-- A law holds of the lowering of the cases of a switch. -/
theorem switchCases (hhandlers : law.Handles context.handlers) (table : Nat) (done : Label)
    (fallback : Option Label) :
    ∀ cases : List Case, law.Holds (Lower.switchCases context table done fallback cases)
  | [] => by
    rw [Lower.switchCases]
    exact law.pure ()
  | .mk keys isDefault body span :: rest => by
    rw [Lower.switchCases]
    refine law.bind (caseLabel fallback isDefault) fun label => ?_
    refine law.bind (law.ofExcept _) fun constants => law.both (law.addCase table _) ?_
    refine law.both (law.bindLabel label) (law.both (stmts hhandlers body) ?_)
    exact law.both (law.emit rfl) (switchCases hhandlers table done fallback rest)

end

/-- A law holds of the lowering of every script body. -/
theorem body (hhandlers : law.Handles context.handlers) (statements : List Stmt) (span : Span) :
    law.Holds (Lower.body context statements span) := by
  refine law.both (stmts hhandlers statements) (law.both (law.emitResults ?_) (law.emit rfl))
  intro outcome houtcome
  obtain ⟨ty, -, rfl⟩ := List.mem_map.mp houtcome
  exact plainResult_defaultPush ty span

end StepLaw

end Lower

end ScriptBackend

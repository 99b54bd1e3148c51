import ScriptBackend.Lowering.Stmt
import ScriptBackend.Lowering.Trailer

/-!
# Straight code

A value expression is lowered to a fixed list of instructions, whatever was laid out before it: it
takes no label, binds none and adds no switch table. The same holds of every statement without
control flow, once its line is marked. The lists are given here by recursion on the tree, and each
lowering step is proved to emit the list of its node, or to fail with the error that stands in the
place of the list.
-/

namespace ScriptBackend

/-- Commands whose calls carry an argument trailer, each with the number of arguments that the
trailer leaves out. -/
abbrev Trailers := List (String × Nat)

namespace Trailers

/-- The handlers that push the trailers. -/
def handlers (trailers : Trailers) : Handlers :=
  ⟨trailers.map fun (command, fixed) => (command, .argumentTrailer fixed)⟩

/-- The number of arguments that the trailer of a call leaves out, if the call has a trailer. -/
def fixed? (trailers : Trailers) (head : CallHead) : Option Nat :=
  match head.kind with
  | .command => trailers.lookup head.name
  | .proc | .jump => none

/-- The handler of a command is the trailer that the command has. -/
theorem find?_handlers (trailers : Trailers) (command : String) :
    trailers.handlers.find? command = (trailers.lookup command).map .argumentTrailer := by
  change List.lookup command (List.map _ trailers) = _
  induction trailers with
  | nil => rfl
  | cons entry rest ih =>
    obtain ⟨name, fixed⟩ := entry
    rw [List.map_cons, List.lookup_cons, List.lookup_cons]
    cases command == name with
    | true => rfl
    | false => exact ih

/-- A call is governed by a handler exactly when it has a trailer. -/
theorem handlerOf?_handlers (trailers : Trailers) (head : CallHead) :
    Lower.handlerOf? trailers.handlers head = (trailers.fixed? head).map .argumentTrailer := by
  unfold Lower.handlerOf? fixed?
  cases head.kind with
  | command => exact find?_handlers trailers head.name
  | proc => rfl
  | jump => rfl

end Trailers

/-- Instructions without control flow among them, or why they cannot be given. -/
abbrev StraightCode := Except LoweringError (List Instruction)

namespace StraightCode

/-- The code of a single instruction. -/
def single (instruction : Except LoweringError Instruction) : StraightCode :=
  instruction.map fun instruction => [instruction]

/-- Code followed by code; the first error counts. -/
def append (first second : StraightCode) : StraightCode := do
  return (← first) ++ (← second)

instance : Append StraightCode := ⟨append⟩

/-- The code of instructions in order. -/
def ofList : List (Except LoweringError Instruction) → StraightCode
  | [] => .ok []
  | first :: rest => single first ++ ofList rest

/-- The code of a single instruction is given when the instruction is. -/
theorem single_eq_ok_iff {outcome : Except LoweringError Instruction} {code : List Instruction} :
    single outcome = .ok code ↔
      ∃ instruction, outcome = .ok instruction ∧ code = [instruction] := by
  cases outcome <;> simp [single, Except.map, eq_comm]

/-- Code followed by code is given when both are. -/
theorem append_eq_ok_iff {first second : StraightCode} {code : List Instruction} :
    first ++ second = .ok code ↔
      ∃ before after, first = .ok before ∧ second = .ok after ∧ code = before ++ after := by
  change append first second = _ ↔ _
  cases first <;> cases second <;>
    simp [append, bind, Except.bind, pure, Except.pure, eq_comm]

/-- No code before code adds nothing. -/
@[simp] theorem ok_nil_append (code : StraightCode) : .ok [] ++ code = code := by
  change append (.ok []) code = code
  cases code <;> rfl

end StraightCode

/-- What a call pushes between its arguments and its invocation: the trailer, if it has one. -/
def CallHead.trailer (head : CallHead) (args : List Expr) : Option Nat → StraightCode
  | none => .ok []
  | some fixed => do
    let codes ← typeCodes (args.drop fixed)
    return [(Instruction.pushString (String.ofList codes)).atSpan head.span]

mutual

/-- The code of a value expression. -/
def Expr.code (trailers : Trailers) (place : Place) : Expr → StraightCode
  | .literal value ty symbol span => .single (value.push ty symbol span)
  | .identifier name _ symbol span => .single (useOfName name symbol span)
  | .localVar name _ symbol span => .single (onLocal .pushLocal name symbol span)
  | .element name index _ symbol span => do
    let push ← onLocal .pushArrayInt name symbol span
    index.code trailers .value ++ .ok [push]
  | .gameVar name secondary _ symbol span =>
    .single (onGame (if secondary then .pushVar2 else .pushVar) name symbol span)
  | .constant _ _ value _ => value.code trailers .value
  | .openConstant name _ span => .error ⟨.unresolved .constant name, span⟩
  | .condition _ _ _ span => .error ⟨.conditionAsValue, span⟩
  | .arithmetic left op right ty span =>
    match place with
    | .value => .error ⟨.arithmeticAsValue, span⟩
    | .operand =>
      left.code trailers .operand ++
        (right.code trailers .operand ++ .single (arithmeticCode op ty span))
  | .calculation inner _ _ => inner.code trailers .operand
  | .paren inner _ => inner.code trailers place
  | .call head args => do
    let trailer ← head.trailer args (trailers.fixed? head)
    Expr.codes trailers args ++ (.ok trailer ++ StraightCode.single head.invocation)
  | .joined parts span =>
    Expr.codes trailers parts ++
      .ok [{ opcode := .joinString, operand := .count parts.length, span := some span }]

/-- The code of value expressions from left to right. -/
def Expr.codes (trailers : Trailers) : List Expr → StraightCode
  | [] => .ok []
  | first :: rest => first.code trailers .value ++ Expr.codes trailers rest

end

/-- The code of an assignment. -/
def assignmentCode (trailers : Trailers) (targets values : List Expr) : StraightCode :=
  match targets with
  | [] => .ok []
  | first :: rest =>
    match rest.find? Expr.isElement with
    | some element => .error ⟨.elementNotFirst, element.span⟩
    | none =>
      (match first with
        | .element _ index _ _ _ => index.code trailers .value
        | _ => .ok []) ++
      (Expr.codes trailers values ++ .ofList (targets.reverse.map Expr.store))

/-- The code of a value for a variable that is declared: the first value or the default. -/
def initialCode (trailers : Trailers) (ty : Ty) (initial : Option Expr) (span : Span) :
    StraightCode :=
  match initial with
  | some value => value.code trailers .value
  | none => .single (ty.defaultPush span)

/-- The code of a statement without control flow, apart from its line marker. -/
def Stmt.straight? (trailers : Trailers) : Stmt → Option StraightCode
  | .leave values span =>
    some (Expr.codes trailers values ++ .ok [{ opcode := .leave : Instruction }.atSpan span])
  | .assign targets values _ => some (assignmentCode trailers targets values)
  | .declare name ty symbol initial span => some do
    let declared ← declaredLocal name symbol span
    initialCode trailers ty initial span ++
      .ok [(Instruction.onSymbol .popLocal (.localVar declared)).atSpan span]
  | .declareArray name ty symbol size span => some do
    let declared ← declaredLocal name symbol span
    if ty.isArray then
      size.code trailers .value ++
        .ok [(Instruction.onSymbol .defineArray (.localVar declared)).atSpan span]
    else .error ⟨.unsupportedType ty .arrayDeclaration, span⟩
  | .evaluate value span =>
    some (value.code trailers .value ++
      .ofList (value.producedTypes.reverse.map fun ty => ty.discard span))
  | .empty _ => some (.ok [])
  | .block .. | .ifThen .. | .ifElse .. | .whileLoop .. | .switch .. => none

/-- The local variable that a statement declares, if it declares one. -/
def Stmt.declared? : Stmt → Option LocalSymbol
  | .declare _ _ symbol _ _ | .declareArray _ _ symbol _ _ => symbol.bind Symbol.local?
  | _ => none

/-- The slots after a statement without control flow. -/
def Stmt.slots (stmt : Stmt) (locals : LocalTable) : LocalTable :=
  match stmt.declared? with
  | some symbol => locals.addLocal symbol
  | none => locals

/-- The code of the return that follows every script body. -/
def defaultLeaveCode (returns : List Ty) (span : Span) : StraightCode :=
  .ofList (returns.map fun ty => ty.defaultPush span) ++
    .ok [{ opcode := .leave : Instruction }.atSpan span]

/-- An instruction goes to the last block. -/
theorem appendInstruction_append_singleton (instruction : Instruction) (earlier : List Block)
    (block : Block) :
    appendInstruction instruction (earlier ++ [block]) = earlier ++ [block.push instruction] := by
  induction earlier with
  | nil => rfl
  | cons first rest ih =>
    cases rest with
    | nil => rfl
    | cons next rest => exact congrArg (first :: ·) ih

/-- The emitter after some instructions were added to its open block. -/
def Emitter.emitAll (emitter : Emitter) (instructions : List Instruction) : Emitter :=
  instructions.foldl Emitter.emit emitter

@[simp] theorem Emitter.emitAll_nil (emitter : Emitter) : emitter.emitAll [] = emitter := rfl

@[simp] theorem Emitter.emitAll_append (emitter : Emitter) (first second : List Instruction) :
    emitter.emitAll (first ++ second) = (emitter.emitAll first).emitAll second :=
  List.foldl_append

/-- Code goes to the end of the open block. -/
theorem Emitter.emitAll_of_open {emitter : Emitter} {earlier : List Block} {block : Block}
    (h : emitter.blocks = earlier ++ [block]) (code : List Instruction) :
    emitter.emitAll code =
      { emitter with
        blocks := earlier ++ [{ block with instructions := block.instructions ++ code }] } := by
  induction code generalizing emitter block with
  | nil =>
    obtain ⟨blocks, tables, labels, lines⟩ := emitter
    cases h
    simp
  | cons first rest ih =>
    have hfirst : (emitter.emit first).blocks = earlier ++ [block.push first] := by
      rw [emit, h, appendInstruction_append_singleton]
    refine (ih hfirst).trans ?_
    simp [emit, Block.push]

/-- Nothing happened but that some code was emitted: it went to the end of the open block, if there
was one. -/
structure LowerState.Emitted (before after : LowerState) (code : List Instruction) : Prop where
  /-- All code was emitted in order. -/
  emits : after = { before with emitter := before.emitter.emitAll code }
  /-- The open block took all code; everything else is as it was. -/
  appends : ∀ earlier block, before.emitter.blocks = earlier ++ [block] →
    after = { before with
      emitter := { before.emitter with
        blocks := earlier ++ [{ block with instructions := block.instructions ++ code }] } }

namespace Lower

/-- A step emits exactly some code and changes the slots in one way, whatever state it starts from;
if there is no code, it fails with the error in its place. -/
def Emits (step : Lower Unit) (code : StraightCode) (slots : LocalTable → LocalTable) : Prop :=
  ∀ start, match code with
    | .ok instructions =>
      step start = .ok ()
        { start with emitter := start.emitter.emitAll instructions, locals := slots start.locals }
    | .error error => ∃ final, step start = .error error final

/-- Doing nothing emits nothing. -/
theorem emits_pure : Emits (pure ()) (.ok []) id := fun _ => rfl

/-- Emitting an instruction emits it. -/
theorem emits_emit (instruction : Instruction) : Emits (emit instruction) (.ok [instruction]) id :=
  fun _ => rfl

/-- Giving up emits nothing and fails. -/
theorem emits_fail (cause : LoweringCause) (span : Span) :
    Emits (fail cause span) (.error ⟨cause, span⟩) id := fun start => ⟨start, rfl⟩

/-- Emitting the result of a computation emits it or fails with it. -/
theorem emits_emitResult (outcome : Except LoweringError Instruction) :
    Emits (emitResult outcome) (.single outcome) id := by
  intro start
  cases outcome with
  | ok instruction => rfl
  | error error => exact ⟨start, rfl⟩

/-- Giving a declared local its slot emits nothing. -/
theorem emits_addLocal (symbol : LocalSymbol) :
    Emits (addLocal symbol) (.ok []) (·.addLocal symbol) := fun _ => rfl

/-- A step that comes after a computation emits what it emits for the value. -/
theorem emits_ofExcept_bind {α : Type} {outcome : Except LoweringError α} {step : α → Lower Unit}
    {code : α → StraightCode} {slots : LocalTable → LocalTable}
    (h : ∀ value, outcome = .ok value → Emits (step value) (code value) slots) :
    Emits (ofExcept outcome >>= step) (outcome >>= code) slots := by
  intro start
  cases outcome with
  | ok value => exact h value rfl start
  | error error => exact ⟨start, rfl⟩

variable {first second : Lower Unit} {before after : StraightCode}
  {change change' : LocalTable → LocalTable}

/-- Two steps emit what the first emits followed by what the second emits. -/
theorem Emits.bind (hfirst : Emits first before change) (hsecond : Emits second after change') :
    Emits (first >>= fun _ => second) (before ++ after) (change' ∘ change) := by
  intro start
  have hstart := hfirst start
  cases before with
  | error error =>
    obtain ⟨final, hfinal⟩ := hstart
    refine ⟨final, ?_⟩
    change EStateM.bind first _ start = _
    rw [EStateM.bind, hfinal]
  | ok instructions =>
    have hmiddle := hsecond
      { start with emitter := start.emitter.emitAll instructions, locals := change start.locals }
    have hbind : (first >>= fun _ => second) start =
        second { start with
          emitter := start.emitter.emitAll instructions
          locals := change start.locals } := by
      change EStateM.bind first _ start = _
      rw [EStateM.bind, hstart]
    cases after with
    | error error =>
      obtain ⟨final, hfinal⟩ := hmiddle
      exact ⟨final, hbind.trans hfinal⟩
    | ok others =>
      change (first >>= fun _ => second) start =
        .ok () { start with emitter := start.emitter.emitAll (instructions ++ others), locals := _ }
      rw [hbind, hmiddle, Emitter.emitAll_append]
      rfl

/-- A step that emits code succeeds exactly where there is code. -/
theorem Emits.eq_ok_iff {step : Lower Unit} {code : StraightCode} (h : Emits step code change)
    {start final : LowerState} :
    step start = .ok () final ↔ ∃ instructions, code = .ok instructions ∧
      final = { start with
        emitter := start.emitter.emitAll instructions, locals := change start.locals } := by
  have hstart := h start
  cases code with
  | ok instructions =>
    rw [hstart]
    simp [eq_comm]
  | error error =>
    obtain ⟨state, hstate⟩ := hstart
    rw [hstate]
    simp

/-- Where a step that emits code and takes no slot succeeds, it added its code to what was laid
out. -/
theorem Emits.emitted {step : Lower Unit} {code : StraightCode} (h : Emits step code id)
    {start final : LowerState} (hrun : step start = .ok () final) :
    ∃ instructions, code = .ok instructions ∧ start.Emitted final instructions := by
  obtain ⟨instructions, hcode, rfl⟩ := h.eq_ok_iff.mp hrun
  refine ⟨instructions, hcode, rfl, fun earlier block hopen => ?_⟩
  rw [Emitter.emitAll_of_open hopen]
  rfl

/-- Emitting the results of computations emits them in order. -/
theorem emits_emitResults (outcomes : List (Except LoweringError Instruction)) :
    Emits (emitResults outcomes) (.ofList outcomes) id := by
  induction outcomes with
  | nil => exact emits_pure
  | cons first rest ih => exact (emits_emitResult first).bind ih

variable {context : Context} {trailers : Trailers}

/-- A call emits its arguments, its trailer and its invocation, if its arguments emit theirs. -/
theorem callWith_emits (h : context.handlers = trailers.handlers) (head : CallHead)
    {args : List Expr} (hargs : Emits (exprs context args) (Expr.codes trailers args) id) :
    Emits (callWith context head (withSteps context args))
      (Expr.code trailers .value (.call head args)) id := by
  rw [callWith, h, trailers.handlerOf?_handlers, Expr.code]
  cases trailers.fixed? head with
  | none =>
    change Emits _ (Expr.codes trailers args ++ (.ok [] ++ StraightCode.single head.invocation)) id
    rw [StraightCode.ok_nil_append]
    exact hargs.bind (emits_emitResult head.invocation)
  | some fixed =>
    change Emits (ofExcept (typeCodes (((withSteps context args).map Prod.fst).drop fixed)) >>=
      fun codes => _) _ id
    rw [map_fst_withSteps, CallHead.trailer, bind_assoc]
    refine emits_ofExcept_bind fun codes _ => ?_
    exact hargs.bind ((emits_emit _).bind (emits_emitResult head.invocation))

mutual

/-- A value expression emits its code. -/
theorem expr_emits (h : context.handlers = trailers.handlers) (place : Place) :
    ∀ e : Expr, Emits (expr context place e) (e.code trailers place) id
  | .literal value ty symbol span => by
    rw [expr, Expr.code]
    exact emits_emitResult _
  | .identifier name _ symbol span => by
    rw [expr, Expr.code]
    exact emits_emitResult _
  | .localVar name _ symbol span => by
    rw [expr, Expr.code]
    exact emits_emitResult _
  | .element name index _ symbol span => by
    rw [expr, Expr.code]
    exact emits_ofExcept_bind fun push _ => (expr_emits h .value index).bind (emits_emit push)
  | .gameVar name secondary _ symbol span => by
    rw [expr, Expr.code]
    exact emits_emitResult _
  | .constant _ _ value _ => by
    rw [expr, Expr.code]
    exact expr_emits h .value value
  | .openConstant name _ span => by
    rw [expr, Expr.code]
    exact emits_fail _ _
  | .condition _ _ _ span => by
    rw [expr, Expr.code]
    exact emits_fail _ _
  | .arithmetic left op right ty span => by
    cases place with
    | value =>
      rw [expr, Expr.code]
      exact emits_fail _ _
    | operand =>
      rw [expr, Expr.code]
      exact (expr_emits h .operand left).bind
        ((expr_emits h .operand right).bind (emits_emitResult _))
  | .calculation inner _ _ => by
    rw [expr, Expr.code]
    exact expr_emits h .operand inner
  | .paren inner _ => by
    rw [expr, Expr.code]
    exact expr_emits h place inner
  | .call head args => by
    rw [expr]
    exact callWith_emits h head (exprs_emits h args)
  | .joined parts span => by
    rw [expr, Expr.code]
    exact (exprs_emits h parts).bind (emits_emit _)

/-- Value expressions emit their codes from left to right. -/
theorem exprs_emits (h : context.handlers = trailers.handlers) :
    ∀ es : List Expr, Emits (exprs context es) (Expr.codes trailers es) id
  | [] => by
    rw [exprs_nil, Expr.codes]
    exact emits_pure
  | first :: rest => by
    rw [exprs_cons, Expr.codes]
    exact (expr_emits h .value first).bind (exprs_emits h rest)

end

/-- The symbol of a declaration is the local variable that it declares. -/
theorem declaredLocal_eq_ok_iff {name : String} {symbol : Option Symbol} {span : Span}
    {declared : LocalSymbol} :
    declaredLocal name symbol span = .ok declared ↔ symbol = some (.localVar declared) := by
  unfold declaredLocal
  split
  · simp
  · next hother =>
    simp only [reduceCtorEq, false_iff]
    rintro rfl
    exact hother declared rfl

/-- An assignment emits its code. -/
theorem assign_emits (h : context.handlers = trailers.handlers) (targets values : List Expr) :
    Emits (assign context targets values) (assignmentCode trailers targets values) id := by
  cases targets with
  | nil => exact emits_pure
  | cons first rest =>
    unfold assign assignmentCode
    simp only
    cases rest.find? Expr.isElement with
    | some element => exact emits_fail _ _
    | none =>
      have hstores := (exprs_emits h values).bind
        (emits_emitResults ((first :: rest).reverse.map Expr.store))
      cases first with
      | element name index ty symbol span => exact (expr_emits h .value index).bind hstores
      | _ => exact emits_pure.bind hstores

/-- A declaration emits its code and gives the variable its slot. -/
private theorem declare_emits (h : context.handlers = trailers.handlers) {name : String} {ty : Ty}
    {symbol : Option Symbol} {initial : Option Expr} {span : Span} {code : StraightCode}
    (hcode : (Stmt.declare name ty symbol initial span).straight? trailers = some code) :
    Emits (declare context name ty symbol initial span) code
      (Stmt.declare name ty symbol initial span).slots := by
  cases hcode
  refine emits_ofExcept_bind fun declared hdeclared => ?_
  rw [declaredLocal_eq_ok_iff] at hdeclared
  subst hdeclared
  have hstore := (emits_addLocal declared).bind
    (emits_emit ((Instruction.onSymbol .popLocal (.localVar declared)).atSpan span))
  rw [StraightCode.ok_nil_append] at hstore
  cases initial with
  | some value => exact (expr_emits h .value value).bind hstore
  | none => exact (emits_emitResult (ty.defaultPush span)).bind hstore

/-- A declaration of an array emits its code and gives the array its slot. -/
private theorem declareArray_emits (h : context.handlers = trailers.handlers) {name : String}
    {ty : Ty} {symbol : Option Symbol} {size : Expr} {span : Span} {code : StraightCode}
    (hcode : (Stmt.declareArray name ty symbol size span).straight? trailers = some code) :
    Emits (declareArray context name ty symbol size span) code
      (Stmt.declareArray name ty symbol size span).slots := by
  cases hcode
  refine emits_ofExcept_bind fun declared hdeclared => ?_
  rw [declaredLocal_eq_ok_iff] at hdeclared
  subst hdeclared
  have hstore := (emits_addLocal declared).bind
    (emits_emit ((Instruction.onSymbol .defineArray (.localVar declared)).atSpan span))
  rw [StraightCode.ok_nil_append] at hstore
  cases ty.isArray with
  | true => exact (expr_emits h .value size).bind hstore
  | false => exact fun start => ⟨start, rfl⟩

/-- A statement without control flow marks its line, then emits its code and changes its slots. -/
theorem stmt_eq_of_straight? (h : context.handlers = trailers.handlers) {s : Stmt}
    {code : StraightCode} (hcode : s.straight? trailers = some code) :
    ∃ step, stmt context s = (markLine s.span >>= fun _ => step) ∧ Emits step code s.slots := by
  cases s with
  | leave values span =>
    refine ⟨leave context values span, by rw [stmt]; rfl, ?_⟩
    cases hcode
    exact (exprs_emits h values).bind (emits_emit _)
  | assign targets values span =>
    refine ⟨assign context targets values, by rw [stmt]; rfl, ?_⟩
    cases hcode
    exact assign_emits h targets values
  | declare name ty symbol initial span =>
    exact ⟨declare context name ty symbol initial span, by rw [stmt]; rfl, declare_emits h hcode⟩
  | declareArray name ty symbol size span =>
    exact ⟨declareArray context name ty symbol size span, by rw [stmt]; rfl,
      declareArray_emits h hcode⟩
  | evaluate value span =>
    refine ⟨evaluate context value span, by rw [stmt]; rfl, ?_⟩
    cases hcode
    exact (expr_emits h .value value).bind (emits_emitResults _)
  | empty span =>
    refine ⟨pure (), by rw [stmt]; exact (bind_pure_unit).symm, ?_⟩
    cases hcode
    exact emits_pure
  | block | ifThen | ifElse | whileLoop | switch => cases hcode

/-- The return after a script body emits the default values and leaves. -/
theorem defaultLeave_emits (context : Context) (span : Span) :
    Emits (defaultLeave context span) (defaultLeaveCode context.script.returns span) id :=
  (emits_emitResults _).bind (emits_emit _)

end Lower

end ScriptBackend

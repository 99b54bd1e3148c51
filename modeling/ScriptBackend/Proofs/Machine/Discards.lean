import ScriptBackend.Proofs.Machine.Values
import ScriptBackend.Tree.Resolved

/-!
# What an evaluated invocation leaves behind

A command or proc is invoked by a call or, if it has no parameters, by its bare name. When it is
invoked as a statement, what it returns has to come off the stacks again, the last value first.

A call is asked for its callee, so all values are dropped, however many there are. A bare name is
asked for its type, which tells of a single value but not of several. So the bare name of a callee
with two or more returns drops nothing, and all that it returns stays on the stacks.
-/

namespace ScriptBackend

variable {World : Type} {engine : Engine World}

/-- What can be invoked for its values. -/
inductive Callee where
  | command (symbol : CommandSymbol)
  | proc (symbol : ScriptSymbol) (isProc : symbol.trigger = .proc)

namespace Callee

/-- The kind of a call of the callee. -/
def kind : Callee → CallKind
  | .command _ => .command
  | .proc _ _ => .proc

/-- The symbol of the callee. -/
def symbol : Callee → Symbol
  | .command symbol => .command symbol
  | .proc symbol _ => .script symbol

/-- The types of the callee's parameters. -/
def parameters : Callee → List Ty
  | .command symbol => symbol.parameters
  | .proc symbol _ => symbol.parameters

/-- The types of the values that the callee returns. -/
def returns : Callee → List Ty
  | .command symbol => symbol.returns
  | .proc symbol _ => symbol.returns

/-- How control is passed to the callee. -/
def opcode : Callee → Opcode
  | .command _ => .command
  | .proc _ _ => .gosub

end Callee

/-- How a callee is invoked. -/
inductive Invocation where
  /-- By a call with arguments. -/
  | call (args : List Expr)
  /-- By its bare name. -/
  | name

/-- The arguments of an invocation. -/
def Invocation.args : Invocation → List Expr
  | .call args => args
  | .name => []

/-- Whether an expression is an invocation of a callee, in parentheses or not. The type of a bare
name is that of the single value returned, else unit. -/
inductive Expr.Invokes (callee : Callee) : Expr → Invocation → Prop where
  | call {head : CallHead} {args : List Expr} (hkind : head.kind = callee.kind)
      (hsymbol : head.symbol = some callee.symbol) :
      Invokes callee (.call head args) (.call args)
  | name {name : String} {span : Span} (hparameters : callee.parameters = []) :
      Invokes callee (.identifier name (Ty.ofReturns callee.returns) (some callee.symbol) span)
        .name
  | paren {inner : Expr} {span : Span} {invocation : Invocation}
      (hinner : Invokes callee inner invocation) : Invokes callee (.paren inner span) invocation

namespace Invocation

/-- The values that are dropped after an invocation, of those that the callee returns: after a call
all, after a bare name only a single one. -/
def dropped : Invocation → List Scalar → List Scalar
  | .call _, elements => elements
  | .name, [element] => [element]
  | .name, _ => []

/-- All values are dropped after a call, and after a bare name if there are not several. -/
theorem dropped_eq_self {invocation : Invocation} {elements : List Scalar}
    (h : invocation ≠ .name ∨ elements.length ≤ 1) : invocation.dropped elements = elements := by
  match invocation, elements, h with
  | .call _, _, _ => rfl
  | .name, [], _ => rfl
  | .name, [_], _ => rfl

/-- None of several values is dropped after a bare name. -/
theorem dropped_name {elements : List Scalar} (h : 1 < elements.length) :
    Invocation.name.dropped elements = [] := by
  match elements, h with
  | _ :: _ :: _, _ => rfl

/-- The type of a bare name tells of the values that are dropped after it. -/
theorem asValues_ofReturns (elements : List Scalar) :
    (Ty.ofReturns (elements.map .scalar)).asValues =
      (Invocation.name.dropped elements).map .scalar := by
  match elements with
  | [] => rfl
  | [_] => rfl
  | _ :: _ :: _ => rfl

end Invocation

namespace Expr.Invokes

variable {callee : Callee} {value : Expr} {invocation : Invocation}

/-- What an invocation is taken to leave. -/
theorem producedTypes_eq (h : value.Invokes callee invocation) {elements : List Scalar}
    (hreturns : callee.returns = elements.map .scalar) :
    value.producedTypes = (invocation.dropped elements).map .scalar := by
  induction h with
  | @call head args hkind hsymbol =>
    rw [Invocation.dropped, ← hreturns, producedTypes, hkind, hsymbol]
    cases callee <;> rfl
  | name hparameters =>
    change (Ty.ofReturns callee.returns).asValues = _
    rw [hreturns]
    exact Invocation.asValues_ofReturns elements
  | paren _ ih => rwa [producedTypes]

/-- An invocation leaves the returns of its callee, if its arguments are what the callee takes. -/
theorem leaves?_eq (h : value.Invokes callee invocation)
    (hargs : Expr.leaveAll? invocation.args = some (stackTypesOf callee.parameters)) :
    value.leaves? = some (stackTypesOf callee.returns) := by
  induction h with
  | call hkind hsymbol =>
    have hsignature : ∀ head : CallHead, head.kind = callee.kind →
        head.symbol = some callee.symbol →
        head.signature? = some (callee.parameters, callee.returns) := by
      intro head hkind hsymbol
      unfold CallHead.signature?
      rw [hkind, hsymbol]
      cases callee <;> rfl
    rw [Expr.leaves?, hsignature _ hkind hsymbol, Option.bind_some]
    exact if_pos hargs
  | name hparameters =>
    rw [Expr.leaves?, Option.bind_some]
    cases callee with
    | command symbol => exact if_pos hparameters
    | proc symbol isProc => exact if_pos ⟨hparameters, by rw [isProc]; decide⟩
  | paren _ ih => rw [Expr.leaves?, ih hargs]

/-- The code of an invocation is that of its arguments and then passes control to the callee. -/
theorem exists_of_code (h : value.Invokes callee invocation) {place : Place}
    {code : List Instruction} (hcode : value.code [] place = .ok code) :
    ∃ before instruction, Expr.codes [] invocation.args = .ok before ∧
      instruction.opcode = callee.opcode ∧ instruction.operand = .symbol callee.symbol ∧
      code = before ++ [instruction] := by
  induction h with
  | @call head args hkind hsymbol =>
    obtain ⟨before, instruction, hbefore, hinvocation, rfl⟩ := exists_of_call_code hcode
    refine ⟨before, instruction, hbefore, ?_⟩
    unfold CallHead.invocation at hinvocation
    rw [hkind, hsymbol] at hinvocation
    cases callee with
    | command symbol =>
      cases hinvocation
      exact ⟨rfl, rfl, rfl⟩
    | proc symbol isProc =>
      simp only [Callee.kind, Callee.symbol, isProc, if_true] at hinvocation
      cases hinvocation
      exact ⟨rfl, rfl, rfl⟩
  | name hparameters =>
    rw [Expr.code] at hcode
    obtain ⟨instruction, huse, rfl⟩ := StraightCode.single_eq_ok_iff.mp hcode
    cases huse
    refine ⟨[], _, by rw [Invocation.args, Expr.codes], ?_, rfl, rfl⟩
    cases callee with
    | command symbol => rfl
    | proc symbol isProc => exact if_neg (by rw [isProc]; decide)
  | paren _ ih =>
    rw [Expr.code] at hcode
    exact ih hcode

/-- Only a callee without parameters is invoked by its bare name. -/
theorem parameters_eq_nil (h : value.Invokes callee .name) : callee.parameters = [] := by
  generalize hinvocation : Invocation.name = invocation at h
  induction h with
  | call hkind hsymbol => cases hinvocation
  | name hparameters => exact hparameters
  | paren _ ih => exact ih hinvocation

end Expr.Invokes

/-- The instruction that drops the top of the stack of a type. -/
def discardOf (span : Span) (element : Scalar) : Instruction :=
  { opcode := .discard, operand := .stack element.stackType, span := some span }

/-- Instructions that are all given are their own code. -/
theorem StraightCode.ofList_map_ok (code : List Instruction) :
    StraightCode.ofList (code.map .ok) = .ok code := by
  induction code with
  | nil => rfl
  | cons first rest ih =>
    rw [List.map_cons, ofList, ih]
    rfl

/-- Values of scalar types are dropped from their stacks, the last first. -/
theorem ofList_discards (elements : List Scalar) (span : Span) :
    StraightCode.ofList ((elements.map Ty.scalar).reverse.map fun ty => ty.discard span) =
      .ok (elements.reverse.map (discardOf span)) := by
  rw [← StraightCode.ofList_map_ok, ← List.map_reverse, List.map_map, List.map_map]
  rfl

/-- Each scalar has its stack. -/
theorem stackTypesOf_scalars (elements : List Scalar) :
    stackTypesOf (elements.map .scalar) = elements.map Scalar.stackType := by
  rw [stackTypesOf, List.filterMap_map, ← List.filterMap_eq_map]
  rfl

/-- A discard takes off a value of its stack. -/
theorem perform_discardOf {value : Value} {element : Scalar} (h : value.stack = element.stackType)
    (span : Span) (base : Stacks) (world : World) :
    (discardOf span element).perform engine ⟨base.push value, world⟩ = some ⟨base, world⟩ := by
  have hargs : [value].map Value.stack = [element.stackType] := congrArg (fun stack => [stack]) h
  have hact : (discardOf span element).act? engine [value] = some (pure []) := rfl
  exact Instruction.perform_pushAll rfl hargs hact base world

/-- Discards in the reverse order take off what was pushed. -/
theorem performAll_discards {values : List Value} {elements : List Scalar}
    (h : values.map Value.stack = elements.map Scalar.stackType) (span : Span) (base : Stacks)
    (world : World) :
    performAll engine (elements.reverse.map (discardOf span)) ⟨base.pushAll values, world⟩ =
      some ⟨base, world⟩ := by
  induction elements generalizing values base with
  | nil =>
    obtain rfl := List.map_eq_nil_iff.mp h
    rfl
  | cons element rest ih =>
    obtain ⟨value, others, rfl, hvalue, hothers⟩ := List.map_eq_cons_iff.mp h
    -- the first value is dropped last, when it is on top again
    rw [List.reverse_cons, List.map_append, performAll_append, Stacks.pushAll_cons, ih hothers,
      Option.bind_some, List.map_singleton, performAll_singleton, perform_discardOf hvalue]

/-- Code that pushes values leaves the stacks as they were if discards of the values follow. -/
theorem Pushes.discard {code : List Instruction} {world : World}
    {outcome : Option (List Value × World)} {elements : List Scalar}
    (h : Pushes engine code world outcome (elements.map Scalar.stackType)) (span : Span) :
    ∃ values after, outcome = some (values, after) ∧
      ∀ base, performAll engine (code ++ elements.reverse.map (discardOf span)) ⟨base, world⟩ =
        some ⟨base, after⟩ := by
  obtain ⟨values, after, houtcome, hvalues, hperform⟩ := h
  refine ⟨values, after, houtcome, fun base => ?_⟩
  rw [performAll_append, hperform, Option.bind_some, performAll_discards hvalues]

namespace Lower

variable {context : Context} {start final : LowerState}

/-- An evaluated expression emits its code and the discards of what it is taken to leave. -/
theorem evaluate_emitted (hhandlers : context.handlers.entries = []) {value : Expr} {span : Span}
    {elements : List Scalar} (hproduced : value.producedTypes = elements.map .scalar)
    (hrun : evaluate context value span start = .ok () final) :
    ∃ code, value.code [] .value = .ok code ∧
      start.Emitted final (code ++ elements.reverse.map (discardOf span)) := by
  have hnone : context.handlers = Trailers.handlers [] := congrArg Handlers.mk hhandlers
  have hemits := (expr_emits hnone .value value).bind
    (emits_emitResults (value.producedTypes.reverse.map fun ty => ty.discard span))
  obtain ⟨all, hall, hemitted⟩ := hemits.emitted hrun
  rw [hproduced, ofList_discards] at hall
  obtain ⟨code, discards, hcode, hdiscards, rfl⟩ := StraightCode.append_eq_ok_iff.mp hall
  cases hdiscards
  exact ⟨code, hcode, hemitted⟩

/-- After an invocation that is evaluated as a statement, all that the callee returns is dropped,
the last value first, and the stacks are as before, whatever the engine; but after a bare name with
two or more returns nothing is dropped and every value stays. -/
theorem evaluate_discards (hhandlers : context.handlers.entries = []) {value : Expr}
    {callee : Callee} {invocation : Invocation} {elements : List Scalar} {span : Span}
    (hinvokes : value.Invokes callee invocation) (hreturns : callee.returns = elements.map .scalar)
    (hrun : evaluate context value span start = .ok () final) :
    ∃ before instruction, Expr.codes [] invocation.args = .ok before ∧
      instruction.opcode = callee.opcode ∧ instruction.operand = .symbol callee.symbol ∧
      (invocation ≠ .name ∨ elements.length ≤ 1 →
        start.Emitted final (before ++ instruction :: elements.reverse.map (discardOf span)) ∧
        (Expr.leaveAll? invocation.args = some (stackTypesOf callee.parameters) →
          ∀ {World : Type} (engine : Engine World) (world : World), ∃ values after,
            value.eval engine world = some (values, after) ∧
            ∀ base, performAll engine
              (before ++ instruction :: elements.reverse.map (discardOf span)) ⟨base, world⟩ =
                some ⟨base, after⟩)) ∧
      (invocation = .name → 1 < elements.length →
        start.Emitted final [instruction] ∧
        ∀ {World : Type} (engine : Engine World) (world : World), ∃ values after,
          value.eval engine world = some (values, after) ∧
          values.map Value.stack = elements.map Scalar.stackType ∧
          ∀ base, performAll engine [instruction] ⟨base, world⟩ =
            some ⟨base.pushAll values, after⟩) := by
  obtain ⟨code, hcode, hemitted⟩ :=
    evaluate_emitted hhandlers (hinvokes.producedTypes_eq hreturns) hrun
  obtain ⟨before, instruction, hbefore, hopcode, hoperand, rfl⟩ := hinvokes.exists_of_code hcode
  have hpushes : Expr.leaveAll? invocation.args = some (stackTypesOf callee.parameters) →
      ∀ {World : Type} (engine : Engine World) (world : World), Pushes engine
        (before ++ [instruction]) world (value.eval engine world)
        (elements.map Scalar.stackType) := by
    intro hargs World engine world
    rw [← stackTypesOf_scalars, ← hreturns]
    exact Expr.pushes_of_code value (hinvokes.leaves?_eq hargs) hcode world
  refine ⟨before, instruction, hbefore, hopcode, hoperand, fun hall => ?_, ?_⟩
  · rw [Invocation.dropped_eq_self hall, List.append_assoc, List.singleton_append] at hemitted
    refine ⟨hemitted, fun hargs World engine world => ?_⟩
    have hdiscarded := (hpushes hargs engine world).discard span
    rwa [List.append_assoc, List.singleton_append] at hdiscarded
  · rintro rfl hseveral
    -- a bare name has no arguments, so its code is the invocation alone
    rw [Invocation.args, Expr.codes] at hbefore
    cases hbefore
    rw [Invocation.dropped_name hseveral] at hemitted
    refine ⟨hemitted, fun engine world => hpushes ?_ engine world⟩
    rw [Invocation.args, Expr.leaveAll?, hinvokes.parameters_eq_nil]
    rfl

/-- A call of a proc that takes an integer and returns a value on each stack, in two pairs of
parentheses. -/
private def wrappedTrade : Expr :=
  .paren (.paren (.ofProc ⟨.proc, "trade", [.int], [.scalar .obj, .string, .long]⟩
    [.ofInt 5 .unknown] .unknown) .unknown) .unknown

/-- The bare name of a proc that returns an integer and a string. -/
private def barePair : Expr :=
  .ofSymbol (.script ⟨.proc, "pair", [], [.int, .string]⟩) .unit .unknown

theorem evaluate_discards_wrappedTrade :
    (∃ final before instruction, evaluate ⟨⟨.proc, "caller", [], []⟩, {}, {}⟩ wrappedTrade .unknown
        ⟨(Emitter.new false).start, {}, []⟩ = .ok () final ∧
      LowerState.Emitted ⟨(Emitter.new false).start, {}, []⟩ final (before ++ instruction ::
        [discardOf .unknown .long, discardOf .unknown .string, discardOf .unknown .obj]) ∧
      ∀ base, performAll Engine.recorder (before ++ instruction ::
          [discardOf .unknown .long, discardOf .unknown .string, discardOf .unknown .obj])
          ⟨base, []⟩ = some ⟨base, [("trade", [.integer 5])]⟩) ∧
    (∃ final instruction, evaluate ⟨⟨.proc, "caller", [], []⟩, {}, {}⟩ barePair .unknown
        ⟨(Emitter.new false).start, {}, []⟩ = .ok () final ∧
      LowerState.Emitted ⟨(Emitter.new false).start, {}, []⟩ final [instruction] ∧
      performAll Engine.recorder [instruction] ⟨{}, []⟩ =
        some ⟨{ integers := [0], strings := [""] }, [("pair", [])]⟩) := by
  constructor
  · obtain ⟨final, hfinal⟩ : ∃ final, evaluate ⟨⟨.proc, "caller", [], []⟩, {}, {}⟩ wrappedTrade
        .unknown ⟨(Emitter.new false).start, {}, []⟩ = .ok () final := ⟨_, rfl⟩
    have hinvokes : wrappedTrade.Invokes
        (.proc ⟨.proc, "trade", [.int], [.scalar .obj, .string, .long]⟩ rfl)
        (.call [.ofInt 5 .unknown]) := .paren (.paren (.call rfl rfl))
    obtain ⟨before, instruction, -, -, -, hall, -⟩ :=
      evaluate_discards rfl hinvokes
        (show _ = List.map Ty.scalar [.obj, .string, .long] from rfl) hfinal
    obtain ⟨hemitted, hmachine⟩ := hall (.inl nofun)
    obtain ⟨values, after, heval, hperform⟩ := hmachine (by decide) Engine.recorder []
    have hafter : (wrappedTrade.eval Engine.recorder []).map Prod.snd =
        some [("trade", [.integer 5])] := by
      decide
    rw [heval, Option.map_some, Option.some.injEq] at hafter
    cases hafter
    exact ⟨final, before, instruction, hfinal, hemitted, hperform⟩
  · obtain ⟨final, hfinal⟩ : ∃ final, evaluate ⟨⟨.proc, "caller", [], []⟩, {}, {}⟩ barePair
        .unknown ⟨(Emitter.new false).start, {}, []⟩ = .ok () final := ⟨_, rfl⟩
    have hinvokes : barePair.Invokes (.proc ⟨.proc, "pair", [], [.int, .string]⟩ rfl) .name :=
      .name rfl
    obtain ⟨before, instruction, -, -, -, -, hname⟩ :=
      evaluate_discards rfl hinvokes (show _ = List.map Ty.scalar [.int, .string] from rfl)
        hfinal
    obtain ⟨hemitted, hmachine⟩ := hname rfl (by decide)
    obtain ⟨values, after, heval, -, hperform⟩ := hmachine Engine.recorder []
    have hmeaning : barePair.eval Engine.recorder [] =
        some ([.integer 0, .string ""], [("pair", [])]) := by
      decide
    rw [hmeaning] at heval
    cases heval
    exact ⟨final, instruction, hfinal, hemitted, hperform {}⟩

theorem not_always_discards_barePair :
    ¬∀ (context : Context) (value : Expr) (callee : Callee) (invocation : Invocation)
      (elements : List Scalar) (span : Span) (start final : LowerState),
      context.handlers.entries = [] → value.Invokes callee invocation →
      callee.returns = elements.map .scalar → evaluate context value span start = .ok () final →
      ∃ before instruction, instruction.opcode = callee.opcode ∧
        start.Emitted final (before ++ instruction :: elements.reverse.map (discardOf span)) := by
  intro h
  obtain ⟨final, hfinal⟩ : ∃ final, evaluate ⟨⟨.proc, "caller", [], []⟩, {}, {}⟩ barePair
      .unknown ⟨(Emitter.new false).start, {}, []⟩ = .ok () final := ⟨_, rfl⟩
  have hinvokes : barePair.Invokes (.proc ⟨.proc, "pair", [], [.int, .string]⟩ rfl) .name :=
    .name rfl
  obtain ⟨before, instruction, -, hemitted⟩ := h ⟨⟨.proc, "caller", [], []⟩, {}, {}⟩ barePair _ _
    [.int, .string] .unknown _ final rfl hinvokes rfl hfinal
  have hblocks := hemitted.appends [] ⟨.entry, []⟩ rfl
  cases hfinal
  have hlengths : [1] = [(before ++ instruction :: _).length] :=
    congrArg (fun state => state.emitter.blocks.map fun block => block.instructions.length) hblocks
  simp at hlengths

end Lower

end ScriptBackend

import Mathlib.Data.List.Nodup
import ScriptBackend.Proofs.Lowering.WellFormed

/-!
# Descriptions of arguments

A call with an argument trailer lowers its arguments from left to right, whatever calls are among
them, and then pushes one code for each argument past the fixed ones, right before it invokes the
command. No two scalars have the same code, so the types of these arguments can be read off the
description. If one of them is no scalar, the first of these is refused and nothing was done.
-/

namespace ScriptBackend

/-- No two scalars have the same code. -/
theorem Scalar.code_injective : Function.Injective Scalar.code := by
  intro first second h
  have hnodup : (all.map code).Nodup := by decide
  exact List.inj_on_of_nodup_map hnodup (mem_all first) (mem_all second) h

/-- Scalars can be read off their codes. -/
theorem Scalar.map_code_inj {first second : List Scalar} :
    first.map code = second.map code ↔ first = second :=
  (List.map_injective_iff.mpr code_injective).eq_iff

/-- Arguments of scalar types have types that are scalars. -/
theorem exists_scalars {args : List Expr} (h : ∀ arg ∈ args, ∃ element, arg.ty = .scalar element) :
    ∃ types : List Scalar, args.map Expr.ty = types.map .scalar := by
  induction args with
  | nil => exact ⟨[], rfl⟩
  | cons arg rest ih =>
    rw [List.forall_mem_cons] at h
    obtain ⟨⟨element, helement⟩, hrest⟩ := h
    obtain ⟨types, htypes⟩ := ih hrest
    exact ⟨element :: types, by rw [List.map_cons, List.map_cons, helement, htypes]⟩

/-- Arguments of scalar types are described by the codes of the scalars. -/
theorem typeCodes_of_scalars {args : List Expr} {types : List Scalar}
    (h : args.map Expr.ty = types.map .scalar) : typeCodes args = .ok (types.map Scalar.code) := by
  induction args generalizing types with
  | nil =>
    obtain rfl := List.map_eq_nil_iff.mp h.symm
    rfl
  | cons arg rest ih =>
    cases types with
    | nil => cases h
    | cons element others =>
      rw [List.map_cons, List.map_cons, List.cons.injEq] at h
      rw [typeCodes, h.1, ih h.2]
      rfl

/-- The first argument that is no scalar cannot be described. -/
theorem typeCodes_of_find? {args : List Expr} {arg : Expr}
    (h : args.find? (fun arg => arg.ty.scalar?.isNone) = some arg) :
    typeCodes args = .error ⟨.unsupportedType arg.ty .argumentDescription, arg.span⟩ := by
  induction args with
  | nil => cases h
  | cons first rest ih =>
    rw [typeCodes]
    cases hty : first.ty with
    | scalar element =>
      rw [List.find?_cons, hty] at h
      rw [ih h]
      rfl
    | array element =>
      rw [List.find?_cons, hty] at h
      cases h
      rw [hty]
    | unit =>
      rw [List.find?_cons, hty] at h
      cases h
      rw [hty]

/-- Whether a text describes the arguments past the fixed ones: it has one code for each of them, in
order, and scalars that are read off it are their types. -/
structure Describes (text : String) (fixed : Nat) (args : List Expr) : Prop where
  length : text.length = args.length - fixed
  code : ∀ i arg, args[fixed + i]? = some arg →
    ∃ element, arg.ty = .scalar element ∧ text.toList[i]? = some element.code
  unique : ∀ types : List Scalar, types.map Scalar.code = text.toList →
    (args.drop fixed).map Expr.ty = types.map .scalar

/-- The codes of the types of the arguments past the fixed ones describe them. -/
theorem describes_ofList {fixed : Nat} {args : List Expr} {types : List Scalar}
    (h : (args.drop fixed).map Expr.ty = types.map .scalar) :
    Describes (String.ofList (types.map Scalar.code)) fixed args where
  length := by
    have hlength := congrArg List.length h
    simpa using hlength.symm
  code i arg harg := by
    have htype := congrArg (fun types : List Ty => types[i]?) h
    simp only [List.getElem?_map, List.getElem?_drop, harg, Option.map_some] at htype
    obtain ⟨element, helement, hty⟩ := Option.map_eq_some_iff.mp htype.symm
    refine ⟨element, hty.symm, ?_⟩
    rw [String.toList_ofList, List.getElem?_map, helement, Option.map_some]
  unique others hothers := by
    rw [String.toList_ofList, Scalar.map_code_inj] at hothers
    rw [h, hothers]

namespace Lower

variable {context : Context} {head : CallHead}

/-- Whether expressions are lowered in order, each from the state that the one before it left. -/
inductive LowersInTurn (context : Context) : List Expr → LowerState → LowerState → Prop where
  | nil {state : LowerState} : LowersInTurn context [] state state
  | cons {first : Expr} {rest : List Expr} {start middle final : LowerState}
      (hfirst : expr context .value first start = .ok () middle)
      (hrest : LowersInTurn context rest middle final) :
      LowersInTurn context (first :: rest) start final

/-- Whether an expression is lowered to some code, whatever was laid out before it. -/
def LowersTo (context : Context) (e : Expr) (code : List Instruction) : Prop :=
  ∀ state, expr context .value e state = .ok () { state with emitter := state.emitter.emitAll code }

/-- Expressions are lowered together exactly if they are lowered in turn. -/
theorem exprs_eq_ok_iff {es : List Expr} {start final : LowerState} :
    exprs context es start = .ok () final ↔ LowersInTurn context es start final := by
  induction es generalizing start with
  | nil =>
    rw [exprs_nil]
    constructor
    · rintro ⟨⟩
      exact .nil
    · rintro ⟨⟩
      rfl
  | cons first rest ih =>
    rw [exprs_cons, bind_eq_ok_iff]
    constructor
    · rintro ⟨_, middle, hfirst, hrest⟩
      exact .cons hfirst (ih.mp hrest)
    · rintro (_ | ⟨hfirst, hrest⟩)
      exact ⟨(), _, hfirst, ih.mpr hrest⟩

/-- The code of expressions is that of each of them in order. -/
theorem exists_codes {trailers : Trailers} (h : context.handlers = trailers.handlers)
    {es : List Expr} {code : List Instruction} (hcode : Expr.codes trailers es = .ok code) :
    ∃ codes, List.Forall₂ (LowersTo context) es codes ∧ code = codes.flatten := by
  induction es generalizing code with
  | nil =>
    rw [Expr.codes] at hcode
    cases hcode
    exact ⟨[], .nil, rfl⟩
  | cons first rest ih =>
    rw [Expr.codes, StraightCode.append_eq_ok_iff] at hcode
    obtain ⟨before, after, hbefore, hafter, rfl⟩ := hcode
    obtain ⟨codes, hcodes, rfl⟩ := ih hafter
    refine ⟨before :: codes, .cons (fun state => ?_) hcodes, rfl⟩
    have hfirst := expr_emits h .value first state
    rwa [hbefore] at hfirst

/-- A call that a handler governs is one of a command. -/
private theorem kind_of_handlerOf? {handlers : Handlers} {handler : Handler}
    (h : handlerOf? handlers head = some handler) : head.kind = .command := by
  unfold handlerOf? at h
  split at h
  · assumption
  · cases h
  · cases h

/-- A call of a command invokes the command that it is bound to. -/
private theorem invocation_eq_ok_iff (h : head.kind = .command) {instruction : Instruction} :
    head.invocation = .ok instruction ↔ ∃ symbol, head.symbol = some (.command symbol) ∧
      instruction = (Instruction.onSymbol .command (.command symbol)).atSpan head.span := by
  rw [CallHead.invocation, h]
  dsimp only
  split
  · next symbol hsymbol =>
    rw [hsymbol]
    constructor
    · rintro ⟨⟩
      exact ⟨symbol, rfl, rfl⟩
    · rintro ⟨_, ⟨⟩, rfl⟩
      rfl
  · next hother =>
    constructor
    · intro hinvoke
      cases hinvoke
    · rintro ⟨symbol, hsymbol, -⟩
      exact absurd hsymbol (hother symbol)

/-- What a call with a trailer ends with: the description of its arguments and the command. -/
def describedEnd (head : CallHead) (text : String) (symbol : CommandSymbol) : List Instruction :=
  [(Instruction.pushString text).atSpan head.span,
    (Instruction.onSymbol .command (.command symbol)).atSpan head.span]

/-- A call whose arguments can be described lowers them and then emits its end. -/
private theorem call_of_typeCodes {fixed : Nat} {args : List Expr} {codes : List Char}
    (h : handlerOf? context.handlers head = some (.argumentTrailer fixed))
    (hcodes : typeCodes (args.drop fixed) = .ok codes) :
    call context head args = (do
      exprs context args
      emit ((Instruction.pushString (String.ofList codes)).atSpan head.span)
      invoke head) := by
  rw [call, callWith, h]
  change (ofExcept (typeCodes (((withSteps context args).map Prod.fst).drop fixed)) >>=
    fun codes => _) = _
  rw [map_fst_withSteps, hcodes]
  rfl

/-- The end of a call with a trailer is code if the call is bound to a command. -/
private theorem describedEnd_eq_ok_iff (h : head.kind = .command) {text : String}
    {code : List Instruction} :
    (.ok [(Instruction.pushString text).atSpan head.span] : StraightCode) ++
        StraightCode.single head.invocation = .ok code ↔
      ∃ symbol, head.symbol = some (.command symbol) ∧ code = describedEnd head text symbol := by
  refine StraightCode.append_eq_ok_iff.trans ?_
  simp only [StraightCode.single_eq_ok_iff, invocation_eq_ok_iff h]
  constructor
  · rintro ⟨_, _, ⟨⟩, ⟨_, ⟨symbol, hsymbol, rfl⟩, rfl⟩, rfl⟩
    exact ⟨symbol, hsymbol, rfl⟩
  · rintro ⟨symbol, hsymbol, rfl⟩
    exact ⟨_, _, rfl, ⟨_, ⟨symbol, hsymbol, rfl⟩, rfl⟩, rfl⟩

/-- A command call with an argument trailer, with any handlers for the calls among its arguments. If
the arguments past the fixed ones are scalars, a text describes them, and the call is lowered by
lowering all arguments in turn, pushing the text and invoking the command it is bound to; where all
handlers push trailers, what is added is the code of each argument in order, the push and the
command. If one of these arguments is no scalar, the first such is refused and the state is as it
was. -/
theorem call_describes {fixed : Nat}
    (h : handlerOf? context.handlers head = some (.argumentTrailer fixed)) (args : List Expr)
    (start : LowerState) :
    ((∀ arg ∈ args.drop fixed, ∃ element, arg.ty = .scalar element) →
      ∃ text, Describes text fixed args ∧
        (∀ final, call context head args start = .ok () final ↔
          ∃ symbol middle, head.symbol = some (.command symbol) ∧
            LowersInTurn context args start middle ∧
            middle.Emitted final (describedEnd head text symbol)) ∧
        (context.handlers.AreTrailers → ∀ final, call context head args start = .ok () final →
          ∃ symbol codes, head.symbol = some (.command symbol) ∧
            List.Forall₂ (LowersTo context) args codes ∧
            start.Emitted final (codes.flatten ++ describedEnd head text symbol))) ∧
      ∀ arg, (args.drop fixed).find? (fun arg => arg.ty.scalar?.isNone) = some arg →
        call context head args start =
          .error ⟨.unsupportedType arg.ty .argumentDescription, arg.span⟩ start := by
  have hkind := kind_of_handlerOf? h
  constructor
  · intro hscalars
    obtain ⟨types, htypes⟩ := exists_scalars hscalars
    have hcall := call_of_typeCodes h (typeCodes_of_scalars htypes)
    have hend := (emits_emit ((Instruction.pushString (String.ofList
      (types.map Scalar.code))).atSpan head.span)).bind (emits_emitResult head.invocation)
    refine ⟨_, describes_ofList htypes, fun final => ?_, fun htrailers final hfinal => ?_⟩
    · rw [hcall, bind_eq_ok_iff]
      constructor
      · rintro ⟨_, middle, hargs, hrest⟩
        obtain ⟨code, hcode, hemitted⟩ := Emits.emitted hend hrest
        obtain ⟨symbol, hsymbol, rfl⟩ := (describedEnd_eq_ok_iff hkind).mp hcode
        exact ⟨symbol, middle, hsymbol, exprs_eq_ok_iff.mp hargs, hemitted⟩
      · rintro ⟨symbol, middle, hsymbol, hargs, hemitted⟩
        refine ⟨(), middle, exprs_eq_ok_iff.mpr hargs, hend.eq_ok_iff.mpr ?_⟩
        exact ⟨_, (describedEnd_eq_ok_iff hkind).mpr ⟨symbol, hsymbol, rfl⟩, hemitted.emits⟩
    · obtain ⟨trailers, hhandlers⟩ := htrailers.exists_trailers
      rw [hcall] at hfinal
      obtain ⟨all, hall, hemitted⟩ := Emits.emitted ((exprs_emits hhandlers args).bind hend) hfinal
      obtain ⟨before, after, hbefore, hafter, rfl⟩ := StraightCode.append_eq_ok_iff.mp hall
      obtain ⟨codes, hcodes, rfl⟩ := exists_codes hhandlers hbefore
      obtain ⟨symbol, hsymbol, rfl⟩ := (describedEnd_eq_ok_iff hkind).mp hafter
      exact ⟨symbol, codes, hsymbol, hcodes, hemitted⟩
  · intro arg harg
    rw [call, callWith, h]
    change (ofExcept (typeCodes (((withSteps context args).map Prod.fst).drop fixed)) >>=
      fun codes => _) start = _
    rw [map_fst_withSteps, typeCodes_of_find? harg]
    rfl

/-- A context in which calls to a queue describe their arguments past the first. -/
private def queueContext : Context :=
  { script := ⟨.proc, "ask", [], []⟩
    handlers := ⟨[("queue", .argumentTrailer 1)]⟩ }

/-- A call to the queue, apart from its arguments. -/
private def queueHead : CallHead :=
  { kind := .command, name := "queue", ty := .int
    symbol := some (.command ⟨"queue", [.int], [.int]⟩), span := .unknown }

/-- An integer, a call to the queue with an argument to describe, and a string. -/
private def queuedInQueue : List Expr :=
  let one : Expr := .literal (.int 1) .int none .unknown
  let text : Expr := .literal (.string "x") .string none .unknown
  [one, .call queueHead [one, text], text]

/-- An integer, a string, an array and a value of no type. -/
private def queuedArray : List Expr :=
  [.literal (.int 1) .int none .unknown, .literal (.string "x") .string none .unknown,
    .localVar "ids" (.array .obj) (some (.localVar ⟨"ids", .array .obj⟩)) ⟨3, 1⟩,
    .literal .null .unit none ⟨4, 1⟩]

theorem call_describes_queue :
    let start : LowerState := { emitter := (Emitter.new false).start }
    handlerOf? queueContext.handlers queueHead = some (.argumentTrailer 1) ∧
      (∃ text final symbol codes, text.toList[0]? = some 'i' ∧ text.toList[1]? = some 's' ∧
        text.length = 2 ∧ call queueContext queueHead queuedInQueue start = .ok () final ∧
        List.Forall₂ (LowersTo queueContext) queuedInQueue codes ∧
        start.Emitted final (codes.flatten ++ describedEnd queueHead text symbol)) ∧
      call queueContext queueHead queuedArray start =
        .error ⟨.unsupportedType (.array .obj) .argumentDescription, ⟨3, 1⟩⟩ start := by
  intro start
  have hhandler : handlerOf? queueContext.handlers queueHead = some (.argumentTrailer 1) := rfl
  refine ⟨hhandler, ?_, (call_describes hhandler queuedArray start).2 _ rfl⟩
  have hscalars : ∀ arg ∈ queuedInQueue.drop 1, ∃ element, arg.ty = .scalar element := by
    simp [queuedInQueue, Expr.ty, queueHead]
  obtain ⟨text, hdescribes, -, hcode⟩ := (call_describes hhandler queuedInQueue start).1 hscalars
  obtain ⟨final, hfinal⟩ :
      ∃ final, call queueContext queueHead queuedInQueue start = .ok () final := ⟨_, rfl⟩
  have htrailers : queueContext.handlers.AreTrailers := by
    simp [Handlers.AreTrailers, queueContext]
  obtain ⟨symbol, codes, -, hcodes, hemitted⟩ := hcode htrailers final hfinal
  obtain ⟨_, ⟨⟩, hfirst⟩ := hdescribes.code 0 _ rfl
  obtain ⟨_, ⟨⟩, hsecond⟩ := hdescribes.code 1 _ rfl
  exact ⟨text, final, symbol, codes, hfirst, hsecond, hdescribes.length, hfinal, hcodes, hemitted⟩

end Lower

end ScriptBackend

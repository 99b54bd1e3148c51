import ScriptBackend.Proofs.Machine.Meaning
import ScriptBackend.Proofs.Stacks.Values

/-!
# Code of values computes what they mean

The code of a value expression pushes the values that the expression stands for on top of whatever
was on the stacks, and asks the engine for the same things in the same order. Each instruction does
what one node means, given the values of its parts; the rest is that parts are computed one after
another and that an instruction finds what they left.
-/

namespace ScriptBackend

variable {World : Type} {engine : Engine World}

/-- Whether an instruction takes values of some stacks, does with them what a meaning says and
leaves values of other stacks. -/
structure Instruction.Acts (engine : Engine World) (instruction : Instruction)
    (meaning : List Value → Act World) (pops pushes : List StackType) : Prop where
  /-- The stacks are those of the instruction. -/
  does : instruction.Does (fun _ => none) pops pushes
  /-- On values of the stacks the instruction does what is meant. -/
  meant : ∀ args : List Value, args.map Value.stack = pops → ∃ act,
    instruction.act? engine args = some act ∧ meaning args = some act ∧
      ∀ world, (act world).1.map Value.stack = pushes

/-- Whether code that runs in a world, on any stacks, pushes the values of an outcome, which are of
some stacks, and leaves the world of the outcome. -/
def Pushes (engine : Engine World) (code : List Instruction) (world : World)
    (outcome : Option (List Value × World)) (kinds : List StackType) : Prop :=
  ∃ values final, outcome = some (values, final) ∧ values.map Value.stack = kinds ∧
    ∀ base, performAll engine code ⟨base, world⟩ = some ⟨base.pushAll values, final⟩

namespace Pushes

variable {first second : List Instruction} {world : World}
  {outcome : Option (List Value × World)} {kinds others : List StackType}

/-- No code pushes nothing. -/
theorem nil : Pushes engine [] world (some ([], world)) [] := ⟨[], world, rfl, rfl, fun _ => rfl⟩

/-- Code after code pushes its values above. -/
theorem append {next : World → Option (List Value × World)}
    (hfirst : Pushes engine first world outcome kinds)
    (hsecond : ∀ middle, Pushes engine second middle (next middle) others) :
    Pushes engine (first ++ second) world
      (do
        let (values, middle) ← outcome
        let (above, final) ← next middle
        return (values ++ above, final))
      (kinds ++ others) := by
  obtain ⟨values, middle, rfl, rfl, hfirst⟩ := hfirst
  obtain ⟨above, final, hnext, rfl, habove⟩ := hsecond middle
  refine ⟨values ++ above, final, ?_, List.map_append, fun base => ?_⟩
  · simp [hnext]
  · rw [performAll_append, hfirst, Option.bind_some, habove, Stacks.pushAll_append]

/-- An instruction after code takes what the code pushed. -/
theorem act {instruction : Instruction} {meaning : List Value → Act World}
    (hfirst : Pushes engine first world outcome kinds)
    (hacts : instruction.Acts engine meaning kinds others) :
    Pushes engine (first ++ [instruction]) world
      (do
        let (values, middle) ← outcome
        let act ← meaning values
        return act middle)
      others := by
  obtain ⟨values, middle, rfl, hkinds, hfirst⟩ := hfirst
  obtain ⟨act, hact, hmeaning, hothers⟩ := hacts.meant values hkinds
  refine ⟨(act middle).1, (act middle).2, ?_, hothers middle, fun base => ?_⟩
  · simp only [Option.bind_eq_bind, Option.bind_some, hmeaning]
    rfl
  · rw [performAll_append, hfirst, Option.bind_some, performAll_singleton]
    exact Instruction.perform_pushAll hacts.does.2 hkinds hact base middle

end Pushes

/-- An instruction without operands pushes what it means. -/
theorem Instruction.Acts.pushes {instruction : Instruction} {meaning : List Value → Act World}
    {kinds : List StackType} (h : instruction.Acts engine meaning [] kinds) (world : World) :
    Pushes engine [instruction] world ((meaning []).map (· world)) kinds := by
  have hpushes : Pushes engine ([] ++ [instruction]) world _ kinds := Pushes.nil.act h
  rw [List.nil_append, Option.bind_eq_bind, Option.bind_some] at hpushes
  rwa [Option.map_eq_bind]

section Instructions

variable {name : String} {ty : Ty} {span : Span} {instruction : Instruction} {stack : StackType}

/-- The values that the engine gives are of the stacks that it was asked for. -/
theorem stack_of_values {kinds : List StackType} (answer : StateM World (Values kinds))
    (world : World) : ((Subtype.val <$> answer) world).1.map Value.stack = kinds :=
  (answer world).1.property

/-- A single value of the integer stack is an integer. -/
theorem eq_integer_of_stack {values : List Value} (h : values.map Value.stack = [.integer]) :
    ∃ number, values = [.integer number] := by
  obtain ⟨value, rfl, hvalue⟩ := List.map_eq_singleton_iff.mp h
  cases value with
  | integer number => exact ⟨number, rfl⟩
  | string text => cases hvalue
  | long number => cases hvalue

/-- A symbol that is read as a local variable is one. -/
theorem Symbol.eq_of_local? {symbol : Symbol} {found : LocalSymbol}
    (h : symbol.local? = some found) : symbol = .localVar found := by
  cases symbol <;> cases h
  rfl

/-- A symbol that is read as a game variable is one. -/
theorem Symbol.eq_of_game? {symbol : Symbol} {found : GameSymbol}
    (h : symbol.game? = some found) : symbol = .gameVar found := by
  cases symbol <;> cases h
  rfl

/-- A node that is asked for a kind of symbol is bound to a symbol of that kind. -/
theorem exists_of_bound {α β : Type} {read : Symbol → Option α} {make : α → Symbol}
    (hread : ∀ {symbol found}, read symbol = some found → symbol = make found)
    {symbol : Option Symbol} {ask : α → Option β} {answer : β}
    (h : (symbol.bind read).bind ask = some answer) :
    ∃ found, symbol = some (make found) ∧ ask found = some answer := by
  obtain ⟨found, hfound, hask⟩ := Option.bind_eq_some_iff.mp h
  obtain ⟨symbol, rfl, hsymbol⟩ := Option.bind_eq_some_iff.mp hfound
  exact ⟨found, congrArg some (hread hsymbol), hask⟩

/-- The push of a literal means its value. -/
theorem Literal.acts {value : Literal} {symbol : Option Symbol}
    (h : value.push ty symbol span = .ok instruction)
    (hstack : value.stack? ty symbol = some stack) :
    instruction.Acts engine (fun _ => value.meaning? engine ty symbol) [] [stack] := by
  refine ⟨Literal.does_of_push h hstack, fun args hargs => ?_⟩
  obtain rfl := List.map_eq_nil_iff.mp hargs
  unfold Literal.push at h
  unfold Literal.stack? at hstack
  cases value with
  | int value | bool value | char value | coord value | long value =>
    cases h
    cases hstack
    exact ⟨_, rfl, rfl, fun _ => rfl⟩
  | string value =>
    cases symbol with
    | none =>
      cases h
      cases hstack
      exact ⟨_, rfl, rfl, fun _ => rfl⟩
    | some symbol =>
      cases h
      cases hstack
      exact ⟨_, rfl, rfl, fun _ => rfl⟩
  | null =>
    simp only at h hstack
    rw [hstack] at h
    simp only [Literal.meaning?, hstack]
    cases stack with
    | integer =>
      cases h
      exact ⟨_, rfl, rfl, fun _ => rfl⟩
    | long =>
      cases h
      exact ⟨_, rfl, rfl, fun _ => rfl⟩
    | string => cases h

/-- The push of a local variable means its value. -/
theorem acts_pushLocal {symbol : LocalSymbol} (span : Span)
    (h : symbol.ty.stackType? = some stack) :
    ((Instruction.onSymbol .pushLocal (.localVar symbol)).atSpan span).Acts engine
      (fun _ => some (Subtype.val <$> engine.readLocal symbol)) [] [stack] := by
  refine ⟨does_pushLocal span h, fun args hargs => ?_⟩
  obtain rfl := List.map_eq_nil_iff.mp hargs
  refine ⟨_, rfl, rfl, fun world => ?_⟩
  rw [stack_of_values, LocalSymbol.space, Ty.slotSpace_eq_of_stackType? h]

/-- The push of a game variable means its value, whoever owns it. -/
theorem acts_pushVar {symbol : GameSymbol} (secondary : Bool) (span : Span)
    (h : symbol.ty.stackType? = some stack) :
    ((Instruction.onSymbol (if secondary then .pushVar2 else .pushVar) (.gameVar symbol)).atSpan
      span).Acts engine (fun _ => some (Subtype.val <$> engine.readGame secondary symbol)) []
        [stack] := by
  refine ⟨does_pushVar secondary span h, fun args hargs => ?_⟩
  obtain rfl := List.map_eq_nil_iff.mp hargs
  refine ⟨Subtype.val <$> engine.readGame secondary symbol, ?_, rfl, fun world => ?_⟩
  · cases secondary <;> rfl
  · rw [stack_of_values, Ty.slotSpace_eq_of_stackType? h]

/-- What a bare name does is what it means. -/
theorem acts_of_useOfName {symbol : Symbol} {values : List StackType}
    (h : useOfName name (some symbol) span = .ok instruction)
    (hvalues : symbol.leaves? = some values) :
    instruction.Acts engine (fun _ => symbol.meaning? engine) [] values := by
  cases symbol with
  | config symbol =>
    refine ⟨does_of_useOfName h hvalues, fun args hargs => ?_⟩
    cases h
    cases hvalues
    obtain rfl := List.map_eq_nil_iff.mp hargs
    exact ⟨_, rfl, rfl, fun _ => rfl⟩
  | constant symbol =>
    cases h
    cases hvalues
    refine ⟨⟨rfl, rfl⟩, fun args hargs => ?_⟩
    obtain rfl := List.map_eq_nil_iff.mp hargs
    exact ⟨_, rfl, rfl, fun _ => rfl⟩
  | localVar symbol =>
    obtain ⟨stack, hstack, rfl⟩ := Option.map_eq_some_iff.mp hvalues
    cases h
    exact acts_pushLocal span hstack
  | gameVar symbol =>
    obtain ⟨stack, hstack, rfl⟩ := Option.map_eq_some_iff.mp hvalues
    cases h
    exact acts_pushVar false span hstack
  | command symbol =>
    refine ⟨does_of_useOfName h hvalues, fun args hargs => ?_⟩
    cases h
    simp only [Symbol.leaves?, Symbol.bareValues?, Option.ite_none_right_eq_some,
      Option.some.injEq] at hvalues
    obtain ⟨-, rfl⟩ := hvalues
    obtain rfl := List.map_eq_nil_iff.mp hargs
    exact ⟨_, rfl, rfl, stack_of_values _⟩
  | script symbol =>
    refine ⟨does_of_useOfName h hvalues, fun args hargs => ?_⟩
    cases h
    simp only [Symbol.leaves?, Symbol.bareValues?, Option.ite_none_right_eq_some,
      Option.some.injEq] at hvalues
    obtain ⟨⟨-, htrigger⟩, rfl⟩ := hvalues
    obtain rfl := List.map_eq_nil_iff.mp hargs
    have hopcode : (Symbol.script symbol).useOpcode = .gosub := if_neg htrigger
    rw [hopcode]
    exact ⟨_, rfl, if_neg htrigger, stack_of_values _⟩

/-- The push of an element takes its index. -/
theorem acts_pushArrayInt (symbol : LocalSymbol) (span : Span) :
    ((Instruction.onSymbol .pushArrayInt (.localVar symbol)).atSpan span).Acts engine
      (elementAt? engine (some (.localVar symbol))) [.integer] [.integer] := by
  refine ⟨⟨rfl, rfl⟩, fun args hargs => ?_⟩
  obtain ⟨index, rfl⟩ := eq_integer_of_stack hargs
  exact ⟨_, rfl, rfl, fun _ => rfl⟩

/-- The operation of an arithmetic node computes its operator on the stack of its type. -/
theorem acts_of_arithmeticCode {op : ArithmeticOp} (h : arithmeticCode op ty span = .ok instruction)
    (hty : ty.stackType? = some stack) :
    instruction.Acts engine (engine.calculate op stack) [stack, stack] [stack] := by
  refine ⟨does_of_arithmeticCode h hty, fun args hargs => ?_⟩
  unfold arithmeticCode at h
  rw [hty, Option.bind_some] at h
  obtain ⟨left, right, rfl, hleft, hright⟩ := exists_pair_of_stacks hargs
  cases stack with
  | integer =>
    cases left <;> cases hleft
    cases right <;> cases hright
    cases op <;> cases h <;> exact ⟨_, rfl, rfl, fun _ => rfl⟩
  | long =>
    cases left <;> cases hleft
    cases right <;> cases hright
    cases op <;> cases h <;> exact ⟨_, rfl, rfl, fun _ => rfl⟩
  | string => cases op <;> cases h

/-- The invocation of a callee that returns is what its call means. -/
theorem CallHead.acts_of_invocation {head : CallHead} {parameters returns : List Ty}
    (h : head.invocation = .ok instruction)
    (hcallee : head.signature? = some (parameters, returns)) :
    instruction.Acts engine (head.meaning? engine) (stackTypesOf parameters)
      (stackTypesOf returns) := by
  refine ⟨CallHead.does_of_invocation h hcallee, fun args _ => ?_⟩
  unfold CallHead.signature? at hcallee
  unfold CallHead.invocation at h
  split at hcallee
  · next hkind hsymbol =>
    cases hcallee
    rw [hkind, hsymbol] at h
    cases h
    refine ⟨_, rfl, ?_, stack_of_values _⟩
    rw [CallHead.meaning?, hkind, hsymbol]
  · next symbol hkind hsymbol =>
    cases hcallee
    rw [hkind, hsymbol] at h
    simp only at h
    split at h
    · cases h
      refine ⟨_, rfl, ?_, stack_of_values _⟩
      rw [CallHead.meaning?, hkind, hsymbol]
    · cases h
  · cases hcallee

/-- Strings have their texts. -/
theorem exists_texts {parts : List Value} {number : Nat}
    (h : parts.map Value.stack = List.replicate number .string) :
    ∃ texts, parts.mapM Value.text? = some texts := by
  induction parts generalizing number with
  | nil => exact ⟨[], rfl⟩
  | cons first rest ih =>
    cases number with
    | zero => cases h
    | succ number =>
      rw [List.map_cons, List.replicate_succ, List.cons.injEq] at h
      obtain ⟨texts, htexts⟩ := ih h.2
      cases first with
      | string text => exact ⟨text :: texts, by simp [Value.text?, htexts]⟩
      | integer number => cases h.1
      | long number => cases h.1

/-- The joining of strings concatenates them in order. -/
theorem acts_joinString (number : Nat) (span : Span) :
    Instruction.Acts engine
      { opcode := .joinString, operand := .count number, span := some span } (joinTexts World)
      (List.replicate number .string) [.string] := by
  refine ⟨⟨rfl, rfl⟩, fun args hargs => ?_⟩
  obtain ⟨texts, htexts⟩ := exists_texts hargs
  refine ⟨pure [.string (String.join texts)], ?_, ?_, fun _ => rfl⟩
  · change joinTexts World args = _
    rw [joinTexts, htexts, Option.map_some]
  · rw [joinTexts, htexts, Option.map_some]

end Instructions

mutual

/-- The code of a value expression pushes what the expression means. -/
theorem Expr.pushes_of_code : ∀ (e : Expr) {kinds : List StackType}, e.leaves? = some kinds →
    ∀ {place : Place} {code : List Instruction}, e.code [] place = .ok code →
      ∀ world, Pushes engine code world (e.eval engine world) kinds
  | .literal value ty symbol span, kinds, hkinds, place, code, hcode, world => by
    rw [Expr.leaves?] at hkinds
    rw [Expr.code] at hcode
    obtain ⟨stack, hstack, rfl⟩ := Option.map_eq_some_iff.mp hkinds
    obtain ⟨instruction, hpush, rfl⟩ := StraightCode.single_eq_ok_iff.mp hcode
    rw [Expr.eval]
    exact (Literal.acts hpush hstack).pushes world
  | .identifier name ty symbol span, kinds, hkinds, place, code, hcode, world => by
    rw [Expr.leaves?] at hkinds
    rw [Expr.code] at hcode
    obtain ⟨symbol, rfl, hleaves⟩ := Option.bind_eq_some_iff.mp hkinds
    obtain ⟨instruction, huse, rfl⟩ := StraightCode.single_eq_ok_iff.mp hcode
    rw [Expr.eval]
    exact (acts_of_useOfName huse hleaves).pushes world
  | .localVar name ty symbol span, kinds, hkinds, place, code, hcode, world => by
    rw [Expr.leaves?] at hkinds
    rw [Expr.code] at hcode
    obtain ⟨symbol, rfl, hasked⟩ := exists_of_bound Symbol.eq_of_local? hkinds
    obtain ⟨stack, hstack, rfl⟩ := Option.map_eq_some_iff.mp hasked
    cases hcode
    rw [Expr.eval]
    exact (acts_pushLocal span hstack).pushes world
  | .element name index ty symbol span, kinds, hkinds, place, code, hcode, world => by
    rw [Expr.leaves?] at hkinds
    rw [Expr.code] at hcode
    obtain ⟨symbol, rfl, hasked⟩ := exists_of_bound Symbol.eq_of_local? hkinds
    simp only [Option.ite_none_right_eq_some, Option.some.injEq] at hasked
    obtain ⟨⟨-, hindex⟩, rfl⟩ := hasked
    obtain ⟨before, after, hbefore, hafter, rfl⟩ := StraightCode.append_eq_ok_iff.mp hcode
    cases hafter
    rw [Expr.eval]
    exact (Expr.pushes_of_code index hindex hbefore world).act (acts_pushArrayInt symbol span)
  | .gameVar name secondary ty symbol span, kinds, hkinds, place, code, hcode, world => by
    rw [Expr.leaves?] at hkinds
    rw [Expr.code] at hcode
    obtain ⟨symbol, rfl, hasked⟩ := exists_of_bound Symbol.eq_of_game? hkinds
    obtain ⟨stack, hstack, rfl⟩ := Option.map_eq_some_iff.mp hasked
    cases hcode
    rw [Expr.eval]
    exact (acts_pushVar secondary span hstack).pushes world
  | .constant name ty value span, kinds, hkinds, place, code, hcode, world => by
    rw [Expr.leaves?] at hkinds
    rw [Expr.code] at hcode
    rw [Expr.eval]
    exact Expr.pushes_of_code value hkinds hcode world
  | .openConstant name ty span, kinds, hkinds, place, code, hcode, world => by
    rw [Expr.leaves?] at hkinds
    cases hkinds
  | .condition left op right span, kinds, hkinds, place, code, hcode, world => by
    rw [Expr.leaves?] at hkinds
    cases hkinds
  | .arithmetic left op right ty span, kinds, hkinds, place, code, hcode, world => by
    rw [Expr.leaves?] at hkinds
    obtain ⟨stack, hstack, hkinds⟩ := Option.bind_eq_some_iff.mp hkinds
    simp only [Option.ite_none_right_eq_some, Option.some.injEq] at hkinds
    obtain ⟨⟨hleft, hright⟩, rfl⟩ := hkinds
    cases place with
    | value =>
      rw [Expr.code] at hcode
      cases hcode
    | operand =>
      rw [Expr.code] at hcode
      obtain ⟨before, after, hbefore, hafter, rfl⟩ := StraightCode.append_eq_ok_iff.mp hcode
      obtain ⟨between, last, hbetween, hlast, rfl⟩ := StraightCode.append_eq_ok_iff.mp hafter
      obtain ⟨instruction, hop, rfl⟩ := StraightCode.single_eq_ok_iff.mp hlast
      have hoperands := (Expr.pushes_of_code left hleft hbefore world).append
        (Expr.pushes_of_code right hright hbetween)
      have hall := hoperands.act (acts_of_arithmeticCode hop hstack)
      rw [List.append_assoc] at hall
      simpa only [Expr.eval, hstack, Option.bind_eq_bind, Option.bind_some, Option.bind_assoc,
        Option.pure_def] using hall
  | .calculation inner ty span, kinds, hkinds, place, code, hcode, world => by
    rw [Expr.leaves?] at hkinds
    rw [Expr.code] at hcode
    rw [Expr.eval]
    exact Expr.pushes_of_code inner hkinds hcode world
  | .paren inner span, kinds, hkinds, place, code, hcode, world => by
    rw [Expr.leaves?] at hkinds
    rw [Expr.code] at hcode
    rw [Expr.eval]
    exact Expr.pushes_of_code inner hkinds hcode world
  | .call head args, kinds, hkinds, place, code, hcode, world => by
    rw [Expr.leaves?] at hkinds
    obtain ⟨⟨parameters, returns⟩, hcallee, hkinds⟩ := Option.bind_eq_some_iff.mp hkinds
    simp only [Option.ite_none_right_eq_some, Option.some.injEq] at hkinds
    obtain ⟨hargs, rfl⟩ := hkinds
    obtain ⟨before, instruction, hbefore, hinvocation, rfl⟩ := exists_of_call_code hcode
    rw [Expr.eval]
    exact (Expr.pushes_of_codes args hargs hbefore world).act
      (CallHead.acts_of_invocation hinvocation hcallee)
  | .joined parts span, kinds, hkinds, place, code, hcode, world => by
    rw [Expr.leaves?] at hkinds
    rw [Expr.code] at hcode
    simp only [Option.ite_none_right_eq_some, Option.some.injEq] at hkinds
    obtain ⟨hparts, rfl⟩ := hkinds
    obtain ⟨before, after, hbefore, hafter, rfl⟩ := StraightCode.append_eq_ok_iff.mp hcode
    cases hafter
    rw [Expr.eval]
    exact (Expr.pushes_of_codes parts hparts hbefore world).act (acts_joinString _ span)

/-- The code of value expressions pushes what they mean, the last topmost. -/
theorem Expr.pushes_of_codes : ∀ (es : List Expr) {kinds : List StackType},
    Expr.leaveAll? es = some kinds → ∀ {code : List Instruction}, Expr.codes [] es = .ok code →
      ∀ world, Pushes engine code world (Expr.evalAll engine es world) kinds
  | [], kinds, hkinds, code, hcode, world => by
    rw [Expr.leaveAll?] at hkinds
    rw [Expr.codes] at hcode
    cases hkinds
    cases hcode
    rw [Expr.evalAll]
    exact .nil
  | first :: rest, kinds, hkinds, code, hcode, world => by
    rw [Expr.leaveAll?] at hkinds
    rw [Expr.codes] at hcode
    obtain ⟨values, hfirst, hkinds⟩ := Option.bind_eq_some_iff.mp hkinds
    obtain ⟨others, hrest, rfl⟩ := Option.map_eq_some_iff.mp hkinds
    obtain ⟨before, after, hbefore, hafter, rfl⟩ := StraightCode.append_eq_ok_iff.mp hcode
    rw [Expr.evalAll]
    exact (Expr.pushes_of_code first hfirst hbefore world).append
      (Expr.pushes_of_codes rest hrest hafter)

end

namespace Lower

variable {context : Context} {start final : LowerState}

/-- What is emitted for a value expression that leaves values pushes what the expression means,
whatever the engine. -/
theorem expr_pushes_meaning (hhandlers : context.handlers.entries = []) {e : Expr}
    {kinds : List StackType} (hkinds : e.leaves? = some kinds)
    (hrun : expr context .value e start = .ok () final) :
    ∃ code, start.Emitted final code ∧ (∀ instruction ∈ code, instruction.opcode.goesOn = true) ∧
      ∀ {World : Type} (engine : Engine World) (world : World),
        Pushes engine code world (e.eval engine world) kinds := by
  have hnone : context.handlers = Trailers.handlers [] := congrArg Handlers.mk hhandlers
  obtain ⟨code, hcode, hemitted⟩ := (expr_emits hnone .value e).emitted hrun
  refine ⟨code, hemitted, ?_, fun engine world => Expr.pushes_of_code e hkinds hcode world⟩
  -- that the code runs at all shows that it has no control flow
  have hpushes : Pushes Engine.recorder code [] _ kinds := Expr.pushes_of_code e hkinds hcode []
  obtain ⟨values, world, -, -, hperform⟩ := hpushes
  exact goesOn_of_performAll (hperform {})

/-- A string joined from a text and the text of a sum, of which one operand is drawn. -/
private def drawnSum : Expr :=
  let number (value : Int32) : Expr := .literal (.int value) .int none .unknown
  let draw : Expr :=
    .call ⟨.proc, "draw", false, .int, some (.script ⟨.proc, "draw", [.int], [.int]⟩), .unknown⟩
      [number 6]
  let sum : Expr := .arithmetic (number 2) .add
    (.paren (.arithmetic draw .multiply (number 3) .int .unknown) .unknown) .int .unknown
  .joined [.literal (.string "sum: ") .string none .unknown,
    .call ⟨.command, "show", false, .string, some (.command ⟨"show", [.int], [.string]⟩), .unknown⟩
      [.calculation sum .int .unknown]] .unknown

theorem expr_pushes_meaning_drawnSum :
    ∃ final code, expr ⟨⟨.proc, "report", [], []⟩, {}, {}⟩ .value drawnSum
        ⟨(Emitter.new false).start, {}, []⟩ = .ok () final ∧
      LowerState.Emitted ⟨(Emitter.new false).start, {}, []⟩ final code ∧
      ∀ base, performAll Engine.recorder code ⟨base, []⟩ =
        some ⟨base.push (.string "sum: "),
          [("draw", [.integer 6]), ("show", [.integer 2])]⟩ := by
  obtain ⟨final, hfinal⟩ : ∃ final, expr ⟨⟨.proc, "report", [], []⟩, {}, {}⟩ .value drawnSum
      ⟨(Emitter.new false).start, {}, []⟩ = .ok () final := ⟨_, rfl⟩
  obtain ⟨code, hemitted, -, hpushes⟩ := expr_pushes_meaning rfl
    (show drawnSum.leaves? = some [.string] by decide) hfinal
  obtain ⟨values, world, heval, -, hperform⟩ := hpushes Engine.recorder []
  have hmeaning : drawnSum.eval Engine.recorder [] =
      some ([.string "sum: "], [("draw", [.integer 6]), ("show", [.integer 2])]) := by
    decide
  rw [hmeaning] at heval
  cases heval
  exact ⟨final, code, hfinal, hemitted, hperform⟩

end Lower

end ScriptBackend

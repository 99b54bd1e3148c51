import ScriptBackend.Proofs.Lowering.Straight
import ScriptBackend.Proofs.Stacks.Typing

/-!
# Code of values on the stacks

The code of a well-typed value expression finds its operands and leaves the values of the
expression on top of whatever was on the stacks before. The stores of assignments and the discards
of evaluated expressions take values off the stacks, the last first.
-/

namespace ScriptBackend

/-- Whether an instruction continues with the next one, and pops and pushes values on some
stacks. -/
def Instruction.Does (subjects : Nat → Option StackType) (instruction : Instruction)
    (pops pushes : List StackType) : Prop :=
  instruction.opcode.goesOn = true ∧ instruction.effect? subjects = some ⟨pops, pushes⟩

variable {subjects : Nat → Option StackType}

/-- An instruction that finds its operands on top leaves its results. -/
theorem Instruction.Does.runs {instruction : Instruction} {pops pushes : List StackType}
    (h : instruction.Does subjects pops pushes) (heights : Heights) :
    Runs subjects (heights.push pops) [instruction] (heights.push pushes) :=
  .single heights h.1 h.2

section Instructions

variable {name : String} {ty : Ty} {span : Span} {instruction : Instruction} {stack : StackType}

/-- The push of a literal. -/
theorem Literal.does_of_push {value : Literal} {symbol : Option Symbol}
    (h : value.push ty symbol span = .ok instruction)
    (hstack : value.stack? ty symbol = some stack) :
    instruction.Does subjects [] [stack] := by
  unfold Literal.push at h
  unfold Literal.stack? at hstack
  cases value with
  | int value | bool value | char value | coord value | long value =>
    cases h
    cases hstack
    exact ⟨rfl, rfl⟩
  | string value =>
    cases symbol with
    | none =>
      cases h
      cases hstack
      exact ⟨rfl, rfl⟩
    | some symbol =>
      cases h
      cases hstack
      exact ⟨rfl, rfl⟩
  | null =>
    simp only at h hstack
    rw [hstack] at h
    cases stack with
    | integer =>
      cases h
      exact ⟨rfl, rfl⟩
    | long =>
      cases h
      exact ⟨rfl, rfl⟩
    | string => cases h

/-- The push of a local variable. -/
theorem does_pushLocal {symbol : LocalSymbol} (span : Span)
    (h : symbol.ty.stackType? = some stack) :
    ((Instruction.onSymbol .pushLocal (.localVar symbol)).atSpan span).Does subjects []
      [stack] := by
  rw [← Ty.slotSpace_eq_of_stackType? h]
  exact ⟨rfl, rfl⟩

/-- The push of a game variable, whoever owns it. -/
theorem does_pushVar {symbol : GameSymbol} (secondary : Bool) (span : Span)
    (h : symbol.ty.stackType? = some stack) :
    ((Instruction.onSymbol (if secondary then .pushVar2 else .pushVar) (.gameVar symbol)).atSpan
      span).Does subjects [] [stack] := by
  have heffect : symbol.ty.stackType?.map (fun stack => StackEffect.mk [] [stack]) =
      some ⟨[], [stack]⟩ := by
    rw [h]
    rfl
  cases secondary with
  | false => exact ⟨rfl, heffect⟩
  | true => exact ⟨rfl, heffect⟩

/-- The store into a local variable. -/
theorem does_popLocal {symbol : LocalSymbol} (span : Span) (h : symbol.ty.stackType? = some stack) :
    ((Instruction.onSymbol .popLocal (.localVar symbol)).atSpan span).Does subjects [stack] [] := by
  rw [← Ty.slotSpace_eq_of_stackType? h]
  exact ⟨rfl, rfl⟩

/-- The store into a game variable, whoever owns it. -/
theorem does_popVar {symbol : GameSymbol} (secondary : Bool) (span : Span)
    (h : symbol.ty.stackType? = some stack) :
    ((Instruction.onSymbol (if secondary then .popVar2 else .popVar) (.gameVar symbol)).atSpan
      span).Does subjects [stack] [] := by
  have heffect : symbol.ty.stackType?.map (fun stack => StackEffect.mk [stack] []) =
      some ⟨[stack], []⟩ := by
    rw [h]
    rfl
  cases secondary with
  | false => exact ⟨rfl, heffect⟩
  | true => exact ⟨rfl, heffect⟩

/-- What a bare name does. -/
theorem does_of_useOfName {symbol : Symbol} {values : List StackType}
    (h : useOfName name (some symbol) span = .ok instruction)
    (hvalues : symbol.bareValues? = some values) : instruction.Does subjects [] values := by
  cases h
  cases symbol with
  | config symbol =>
    cases hvalues
    exact ⟨rfl, rfl⟩
  | constant symbol => cases hvalues
  | localVar symbol =>
    obtain ⟨stack, hstack, rfl⟩ := Option.map_eq_some_iff.mp hvalues
    exact does_pushLocal span hstack
  | gameVar symbol =>
    obtain ⟨stack, hstack, rfl⟩ := Option.map_eq_some_iff.mp hvalues
    exact does_pushVar false span hstack
  | command symbol =>
    simp only [Symbol.bareValues?, Option.ite_none_right_eq_some, Option.some.injEq] at hvalues
    obtain ⟨hparameters, rfl⟩ := hvalues
    refine ⟨rfl, ?_⟩
    change some (StackEffect.mk (stackTypesOf symbol.parameters) _) = _
    rw [hparameters]
    rfl
  | script symbol =>
    simp only [Symbol.bareValues?, Option.ite_none_right_eq_some, Option.some.injEq] at hvalues
    obtain ⟨⟨hparameters, htrigger⟩, rfl⟩ := hvalues
    have hopcode : (Symbol.script symbol).useOpcode = .gosub := if_neg htrigger
    rw [hopcode]
    refine ⟨rfl, ?_⟩
    change some (StackEffect.mk (stackTypesOf symbol.parameters) _) = _
    rw [hparameters]
    rfl

/-- The operation of an arithmetic node. -/
theorem does_of_arithmeticCode {op : ArithmeticOp} (h : arithmeticCode op ty span = .ok instruction)
    (hty : ty.stackType? = some stack) : instruction.Does subjects [stack, stack] [stack] := by
  unfold arithmeticCode at h
  rw [hty, Option.bind_some] at h
  cases op <;> cases stack <;> cases h <;> exact ⟨rfl, rfl⟩

/-- The invocation of a callee that returns. -/
theorem CallHead.does_of_invocation {head : CallHead} {parameters returns : List Ty}
    (h : head.invocation = .ok instruction)
    (hcallee : head.signature? = some (parameters, returns)) :
    instruction.Does subjects (stackTypesOf parameters) (stackTypesOf returns) := by
  unfold CallHead.signature? at hcallee
  unfold CallHead.invocation at h
  split at hcallee
  · next hkind hsymbol =>
    cases hcallee
    rw [hkind, hsymbol] at h
    cases h
    exact ⟨rfl, rfl⟩
  · next symbol hkind hsymbol =>
    cases hcallee
    rw [hkind, hsymbol] at h
    simp only at h
    split at h
    · cases h
      exact ⟨rfl, rfl⟩
    · cases h
  · cases hcallee

/-- Without trailers a call is its arguments and its invocation. -/
theorem exists_of_call_code {head : CallHead} {args : List Expr} {place : Place}
    {code : List Instruction} (h : (Expr.call head args).code [] place = .ok code) :
    ∃ before instruction, Expr.codes [] args = .ok before ∧ head.invocation = .ok instruction ∧
      code = before ++ [instruction] := by
  have hfixed : Trailers.fixed? [] head = none := by
    unfold Trailers.fixed?
    cases head.kind <;> rfl
  rw [Expr.code, hfixed] at h
  change Expr.codes [] args ++ (.ok [] ++ StraightCode.single head.invocation) = .ok code at h
  rw [StraightCode.ok_nil_append] at h
  obtain ⟨before, after, hbefore, hafter, rfl⟩ := StraightCode.append_eq_ok_iff.mp h
  obtain ⟨instruction, hinvocation, rfl⟩ := StraightCode.single_eq_ok_iff.mp hafter
  exact ⟨before, instruction, hbefore, hinvocation, rfl⟩

/-- The push of a default. -/
theorem Ty.does_of_defaultPush (h : ty.defaultPush span = .ok instruction) :
    ∃ stack, ty.stackType? = some stack ∧ instruction.Does subjects [] [stack] := by
  cases ty with
  | scalar element =>
    refine ⟨element.stackType, rfl, ?_⟩
    cases element <;> cases h <;> exact ⟨rfl, rfl⟩
  | array element => cases h
  | unit => cases h

/-- The discard of a value. -/
theorem Ty.does_of_discard (h : ty.discard span = .ok instruction) :
    ∃ stack, ty.stackType? = some stack ∧ instruction.Does subjects [stack] [] := by
  unfold Ty.discard at h
  cases hstack : ty.stackType? with
  | none =>
    rw [hstack] at h
    cases h
  | some stack =>
    rw [hstack] at h
    cases h
    exact ⟨stack, rfl, rfl, rfl⟩

/-- The store into a target other than an element. -/
theorem Expr.Takes.does_of_store {target : Expr} (h : target.Takes stack)
    (helement : target.isElement = false) (hstore : target.store = .ok instruction) :
    instruction.Does subjects [stack] [] := by
  cases h with
  | localVar hsymbol =>
    cases hstore
    exact does_popLocal _ hsymbol
  | element => cases helement
  | gameVar hsymbol =>
    cases hstore
    exact does_popVar _ _ hsymbol

end Instructions

mutual

/-- The code of a well-typed value expression leaves its values on top. -/
theorem Expr.Yields.runs : ∀ {e : Expr} {values : List StackType}, e.Yields values →
    ∀ {place : Place} {code : List Instruction}, e.code [] place = .ok code →
      ∀ heights : Heights, Runs subjects heights code (heights.push values)
  | _, _, .literal hvalue _, place, code, hcode, heights => by
    rw [Expr.code] at hcode
    obtain ⟨instruction, hpush, rfl⟩ := StraightCode.single_eq_ok_iff.mp hcode
    exact (Literal.does_of_push hpush hvalue).runs heights
  | _, _, .identifier hsymbol, place, code, hcode, heights => by
    rw [Expr.code] at hcode
    obtain ⟨instruction, huse, rfl⟩ := StraightCode.single_eq_ok_iff.mp hcode
    exact (does_of_useOfName huse hsymbol).runs heights
  | _, _, .localVar hsymbol _, place, code, hcode, heights => by
    rw [Expr.code] at hcode
    obtain ⟨instruction, hpush, rfl⟩ := StraightCode.single_eq_ok_iff.mp hcode
    cases hpush
    exact (does_pushLocal _ hsymbol).runs heights
  | _, _, .element _ _ hindex, place, code, hcode, heights => by
    rw [Expr.code] at hcode
    obtain ⟨before, after, hbefore, hafter, rfl⟩ := StraightCode.append_eq_ok_iff.mp hcode
    cases hafter
    refine (hindex.runs hbefore heights).append (Instruction.Does.runs ?_ heights)
    exact ⟨rfl, rfl⟩
  | _, _, .gameVar hsymbol _, place, code, hcode, heights => by
    rw [Expr.code] at hcode
    obtain ⟨instruction, hpush, rfl⟩ := StraightCode.single_eq_ok_iff.mp hcode
    cases hpush
    exact (does_pushVar _ _ hsymbol).runs heights
  | _, _, .constant hvalue, place, code, hcode, heights => by
    rw [Expr.code] at hcode
    exact hvalue.runs hcode heights
  | _, _, @Expr.Yields.arithmetic _ _ _ _ _ stack hty hleft hright, place, code, hcode,
      heights => by
    cases place with
    | value =>
      rw [Expr.code] at hcode
      cases hcode
    | operand =>
      rw [Expr.code] at hcode
      obtain ⟨before, after, hbefore, hafter, rfl⟩ := StraightCode.append_eq_ok_iff.mp hcode
      obtain ⟨between, last, hbetween, hlast, rfl⟩ := StraightCode.append_eq_ok_iff.mp hafter
      obtain ⟨instruction, hop, rfl⟩ := StraightCode.single_eq_ok_iff.mp hlast
      have hsecond := hright.runs hbetween (heights.push [stack])
      rw [← Heights.push_append] at hsecond
      exact (hleft.runs hbefore heights).append
        (hsecond.append ((does_of_arithmeticCode hop hty).runs heights))
  | _, _, .calculation hinner, place, code, hcode, heights => by
    rw [Expr.code] at hcode
    exact hinner.runs hcode heights
  | _, _, .paren hinner, place, code, hcode, heights => by
    rw [Expr.code] at hcode
    exact hinner.runs hcode heights
  | _, _, @Expr.Yields.call head args _ _ hcallee hargs, place, code, hcode, heights => by
    obtain ⟨before, instruction, hbefore, hinvocation, rfl⟩ := exists_of_call_code hcode
    exact (hargs.runs hbefore heights).append
      ((CallHead.does_of_invocation hinvocation hcallee).runs heights)
  | _, _, .joined hparts, place, code, hcode, heights => by
    rw [Expr.code] at hcode
    obtain ⟨before, after, hbefore, hafter, rfl⟩ := StraightCode.append_eq_ok_iff.mp hcode
    cases hafter
    refine (hparts.runs hbefore heights).append (Instruction.Does.runs ?_ heights)
    exact ⟨rfl, rfl⟩

/-- The code of well-typed value expressions leaves their values on top, the last topmost. -/
theorem Expr.YieldAll.runs : ∀ {es : List Expr} {values : List StackType}, Expr.YieldAll es values →
    ∀ {code : List Instruction}, Expr.codes [] es = .ok code →
      ∀ heights : Heights, Runs subjects heights code (heights.push values)
  | _, _, .nil, code, hcode, heights => by
    rw [Expr.codes] at hcode
    cases hcode
    exact .nil
  | _, _, .cons hfirst hrest, code, hcode, heights => by
    rw [Expr.codes] at hcode
    obtain ⟨before, after, hbefore, hafter, rfl⟩ := StraightCode.append_eq_ok_iff.mp hcode
    rw [Heights.push_append]
    exact (hfirst.runs hbefore heights).append (hrest.runs hafter (heights.push _))

end

namespace StraightCode

/-- Code of instructions after code of instructions. -/
theorem ofList_append_eq_ok_iff {first second : List (Except LoweringError Instruction)}
    {code : List Instruction} : ofList (first ++ second) = .ok code ↔
      ∃ before after, ofList first = .ok before ∧ ofList second = .ok after ∧
        code = before ++ after := by
  induction first generalizing code with
  | nil =>
    constructor
    · exact fun h => ⟨[], code, rfl, h, rfl⟩
    · rintro ⟨_, after, ⟨⟩, h, rfl⟩
      exact h
  | cons outcome rest ih =>
    rw [List.cons_append, ofList, append_eq_ok_iff]
    constructor
    · rintro ⟨head, tail, hhead, htail, rfl⟩
      obtain ⟨before, after, hbefore, hafter, rfl⟩ := ih.mp htail
      exact ⟨head ++ before, after, append_eq_ok_iff.mpr ⟨head, before, hhead, hbefore, rfl⟩,
        hafter, (List.append_assoc ..).symm⟩
    · rintro ⟨_, after, hfirst, hafter, rfl⟩
      obtain ⟨head, before, hhead, hbefore, rfl⟩ := append_eq_ok_iff.mp hfirst
      exact ⟨head, before ++ after, hhead, ih.mpr ⟨before, after, hbefore, hafter, rfl⟩,
        List.append_assoc ..⟩

/-- Where code of instructions is given, every instruction is. -/
theorem exists_of_mem_of_ofList {outcomes : List (Except LoweringError Instruction)}
    {code : List Instruction} (h : ofList outcomes = .ok code) :
    ∀ outcome ∈ outcomes, ∃ instruction, outcome = .ok instruction := by
  induction outcomes generalizing code with
  | nil => exact fun outcome hmem => absurd hmem List.not_mem_nil
  | cons first rest ih =>
    obtain ⟨head, tail, hhead, htail, rfl⟩ := append_eq_ok_iff.mp h
    obtain ⟨instruction, hfirst, -⟩ := single_eq_ok_iff.mp hhead
    exact List.forall_mem_cons.mpr ⟨⟨instruction, hfirst⟩, ih htail⟩

end StraightCode

/-- Types that all have a stack have one value each. -/
theorem forall₂_stackTypesOf {types : List Ty}
    (h : ∀ ty ∈ types, ∃ stack, ty.stackType? = some stack) :
    List.Forall₂ (fun ty stack => ty.stackType? = some stack) types (stackTypesOf types) := by
  induction types with
  | nil => exact .nil
  | cons ty rest ih =>
    rw [List.forall_mem_cons] at h
    obtain ⟨⟨stack, hstack⟩, hrest⟩ := h
    rw [stackTypesOf, List.filterMap_cons_some hstack]
    exact .cons hstack (ih hrest)

/-- Instructions that each take a value off a stack, from the last to the first, take all values. -/
theorem runs_pops {α : Type} {pop : α → Except LoweringError Instruction}
    {takes : α → StackType → Prop} {targets : List α} {kinds : List StackType}
    (htargets : List.Forall₂ takes targets kinds)
    (hpop : ∀ target ∈ targets, ∀ stack instruction, takes target stack →
      pop target = .ok instruction → instruction.Does subjects [stack] [])
    {code : List Instruction} (hcode : StraightCode.ofList (targets.reverse.map pop) = .ok code)
    (heights : Heights) : Runs subjects (heights.push kinds) code heights := by
  induction htargets generalizing code heights with
  | nil =>
    cases hcode
    exact .nil
  | @cons target stack rest kinds htake _ ih =>
    rw [List.forall_mem_cons] at hpop
    rw [List.reverse_cons, List.map_append, List.map_singleton] at hcode
    obtain ⟨before, after, hbefore, hafter, rfl⟩ :=
      StraightCode.ofList_append_eq_ok_iff.mp hcode
    obtain ⟨head, tail, hhead, htail, rfl⟩ := StraightCode.append_eq_ok_iff.mp hafter
    obtain ⟨instruction, hinstruction, rfl⟩ := StraightCode.single_eq_ok_iff.mp hhead
    cases htail
    have hrest := ih hpop.2 hbefore (heights.push [stack])
    rw [← Heights.push_append] at hrest
    exact hrest.append ((hpop.1 stack instruction htake hinstruction).runs heights)

/-- The discards of values of some types take all values. -/
theorem runs_discards {types : List Ty} {span : Span} {code : List Instruction}
    (hcode : StraightCode.ofList (types.reverse.map fun ty => ty.discard span) = .ok code)
    (heights : Heights) :
    Runs subjects (heights.push (stackTypesOf types)) code heights := by
  have hstacks : ∀ ty ∈ types, ∃ stack, ty.stackType? = some stack := by
    intro ty hty
    obtain ⟨instruction, hdiscard⟩ := StraightCode.exists_of_mem_of_ofList hcode _
      (List.mem_map_of_mem (List.mem_reverse.mpr hty))
    obtain ⟨stack, hstack, -⟩ := @Ty.does_of_discard subjects _ _ _ hdiscard
    exact ⟨stack, hstack⟩
  refine runs_pops (forall₂_stackTypesOf hstacks)
    (fun ty _ stack instruction hty hdiscard => ?_) hcode heights
  obtain ⟨found, hfound, hdoes⟩ := Ty.does_of_discard hdiscard
  rw [hty] at hfound
  cases hfound
  exact hdoes

/-- The pushes of the defaults of some types leave one value each. -/
theorem runs_defaults {types : List Ty} {span : Span} {code : List Instruction}
    (hcode : StraightCode.ofList (types.map fun ty => ty.defaultPush span) = .ok code)
    (heights : Heights) :
    Runs subjects heights code (heights.push (stackTypesOf types)) := by
  induction types generalizing code heights with
  | nil =>
    cases hcode
    exact .nil
  | cons ty rest ih =>
    obtain ⟨head, tail, hhead, htail, rfl⟩ := StraightCode.append_eq_ok_iff.mp hcode
    obtain ⟨instruction, hinstruction, rfl⟩ := StraightCode.single_eq_ok_iff.mp hhead
    obtain ⟨stack, hstack, hdoes⟩ := Ty.does_of_defaultPush hinstruction
    have hvalues : stackTypesOf (ty :: rest) = [stack] ++ stackTypesOf rest :=
      List.filterMap_cons_some hstack
    rw [hvalues, Heights.push_append]
    exact (hdoes.runs heights).append (ih htail (heights.push [stack]))

end ScriptBackend

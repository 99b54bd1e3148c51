import ScriptBackend.Proofs.Lowering.WellFormed

/-!
# Invocations of commands with a handler

A command that has a handler is invoked in two ways. A call, wherever it stands, pushes its argument
trailer right before it invokes the command, in the same block. A bare name invokes the command as
it is: it is not a call, no handler is asked, and nothing is pushed for it. No other part of a tree
invokes a command.
-/

namespace ScriptBackend

mutual

/-- An expression and the expressions in it, outer ones first. -/
def Expr.parts : Expr → List Expr
  | e@(.element _ inner _ _ _) | e@(.constant _ _ inner _) | e@(.calculation inner _ _)
  | e@(.paren inner _) => e :: inner.parts
  | e@(.condition left _ right _) | e@(.arithmetic left _ right _ _) =>
    e :: (left.parts ++ right.parts)
  | e@(.call _ args) => e :: Expr.partsOf args
  | e@(.joined parts _) => e :: Expr.partsOf parts
  | e@(.literal ..) | e@(.identifier ..) | e@(.localVar ..) | e@(.gameVar ..)
  | e@(.openConstant ..) => [e]

/-- Expressions and the expressions in them, in order. -/
def Expr.partsOf : List Expr → List Expr
  | [] => []
  | first :: rest => first.parts ++ Expr.partsOf rest

end

mutual

/-- The expressions that a statement is lowered from. The keys of a case are folded, not lowered. -/
def Stmt.parts : Stmt → List Expr
  | .block body _ => Stmt.partsOf body
  | .ifThen test onTrue _ => test.parts ++ onTrue.parts
  | .ifElse test onTrue onFalse _ => test.parts ++ (onTrue.parts ++ onFalse.parts)
  | .whileLoop test body _ => test.parts ++ body.parts
  | .switch _ subject cases _ => subject.parts ++ Case.partsOf cases
  | .leave values _ => Expr.partsOf values
  | .assign targets values _ => Expr.partsOf targets ++ Expr.partsOf values
  | .declare _ _ _ initial _ => Expr.partsOf initial.toList
  | .declareArray _ _ _ size _ => size.parts
  | .evaluate value _ => value.parts
  | .empty _ => []

/-- The expressions that statements are lowered from, in order. -/
def Stmt.partsOf : List Stmt → List Expr
  | [] => []
  | first :: rest => first.parts ++ Stmt.partsOf rest

/-- The expressions that the cases of a switch are lowered from, in order. -/
def Case.partsOf : List Case → List Expr
  | [] => []
  | .mk _ _ body _ :: rest => Stmt.partsOf body ++ Case.partsOf rest

end

/-- Whether a call or bare name bears the name of the symbol that it is bound to. -/
def Expr.BearsName : Expr → Prop
  | .call head _ => ∀ symbol ∈ head.symbol, head.name = symbol.name
  | .identifier name _ symbol _ => ∀ bound ∈ symbol, name = bound.name
  | _ => True

instance : DecidablePred Expr.BearsName
  | .call head _ => inferInstanceAs (Decidable (∀ symbol ∈ head.symbol, head.name = symbol.name))
  | .identifier name _ symbol _ => inferInstanceAs (Decidable (∀ bound ∈ symbol, name = bound.name))
  | .literal .. | .localVar .. | .element .. | .gameVar .. | .constant .. | .openConstant ..
  | .condition .. | .arithmetic .. | .calculation .. | .paren .. | .joined .. => .isTrue trivial

/-- The command that an instruction invokes. -/
def Instruction.command? (instruction : Instruction) : Option CommandSymbol :=
  match instruction.opcode with
  | .command => instruction.symbol?.bind Symbol.command?
  | _ => none

/-- Whether an instruction is the invocation of a call, and the instruction before it pushes the
argument trailer of the call. -/
def IsTrailedCall (tree : List Expr) (fixed : Nat) (command : Instruction)
    (previous : Option Instruction) : Prop :=
  ∃ head args codes, .call head args ∈ tree ∧ head.invocation = .ok command ∧
    typeCodes (args.drop fixed) = .ok codes ∧
    previous = some ((Instruction.pushString (String.ofList codes)).atSpan head.span)

/-- Whether an instruction is the use of a bare name. -/
def IsBareName (tree : List Expr) (command : Instruction) : Prop :=
  ∃ name ty symbol span, .identifier name ty symbol span ∈ tree ∧
    useOfName name symbol span = .ok command

/-- The last item, if it is an instruction. -/
def lastCode? (items : List Item) : Option Instruction := items.getLast?.bind Item.instruction?

/-- An instruction that comes last stays last behind others. -/
theorem lastCode?_append {first second : List Item} {instruction : Instruction}
    (h : lastCode? second = some instruction) :
    lastCode? (first ++ second) = some instruction := by
  obtain ⟨item, hitem, hcode⟩ := Option.bind_eq_some_iff.mp h
  rw [lastCode?, List.getLast?_append, hitem]
  exact hcode

/-- Within a block the last item is the last instruction. -/
theorem lastCode?_bind (before : List Item) (label : Label) (instructions : List Instruction) :
    lastCode? (before ++ .bind label :: instructions.map .code) = instructions.getLast? := by
  rw [lastCode?, List.getLast?_append, List.getLast?_cons, Option.some_or, Option.bind_some,
    List.getLast?_map]
  cases instructions.getLast? <;> rfl

/-- Whether every invocation of a command with a trailer is a trailed call of a tree or the use of a
bare name. -/
def Governed (trailers : Trailers) (tree : List Expr) (items : List Item) : Prop :=
  ∀ before command after, items = before ++ .code command :: after →
    ∀ symbol fixed, command.command? = some symbol → trailers.lookup symbol.name = some fixed →
      IsTrailedCall tree fixed command (lastCode? before) ∨ IsBareName tree command

variable {trailers : Trailers} {tree : List Expr}

namespace Governed

/-- Items that invoke no command. -/
theorem of_forall {items : List Item}
    (h : ∀ instruction ∈ codeOf items, instruction.command? = none) :
    Governed trailers tree items := by
  rintro before command after rfl symbol fixed hcommand
  rw [h command (by simp)] at hcommand
  cases hcommand

/-- No items. -/
theorem nil : Governed trailers tree [] := of_forall (by simp)

/-- Items behind others. -/
private theorem behind {second : List Item} (h : Governed trailers tree second)
    (first : List Item) {middle after : List Item} {command : Instruction}
    (hsplit : second = middle ++ .code command :: after) {symbol : CommandSymbol} {fixed : Nat}
    (hcommand : command.command? = some symbol)
    (htrailer : trailers.lookup symbol.name = some fixed) :
    IsTrailedCall tree fixed command (lastCode? (first ++ middle)) ∨ IsBareName tree command := by
  rcases h middle command after hsplit symbol fixed hcommand htrailer with
    ⟨head, args, codes, hcall, hinvoke, hcodes, hlast⟩ | hbare
  · exact .inl ⟨head, args, codes, hcall, hinvoke, hcodes, lastCode?_append hlast⟩
  · exact .inr hbare

/-- Items in order. -/
theorem append {first second : List Item} (hfirst : Governed trailers tree first)
    (hsecond : Governed trailers tree second) : Governed trailers tree (first ++ second) := by
  intro before command after hsplit symbol fixed hcommand htrailer
  rcases List.append_eq_append_iff.mp hsplit with
    ⟨middle, rfl, hmiddle⟩ | ⟨middle, rfl, hmiddle⟩
  · exact hsecond.behind first hmiddle hcommand htrailer
  · cases middle with
    | nil =>
      have hstart : second = [] ++ .code command :: after := hmiddle.symm
      simpa using hsecond.behind before hstart hcommand htrailer
    | cons item rest =>
      obtain ⟨rfl, -⟩ := List.cons.inj hmiddle
      exact hfirst before command rest rfl symbol fixed hcommand htrailer

/-- Items and an instruction behind them. -/
theorem concat {items : List Item} {instruction : Instruction}
    (hitems : Governed trailers tree items)
    (h : ∀ symbol fixed, instruction.command? = some symbol →
      trailers.lookup symbol.name = some fixed →
      IsTrailedCall tree fixed instruction (lastCode? items) ∨ IsBareName tree instruction) :
    Governed trailers tree (items ++ [.code instruction]) := by
  intro before command after hsplit symbol fixed hcommand htrailer
  rcases List.eq_nil_or_concat after with rfl | ⟨rest, last, rfl⟩
  · obtain ⟨rfl, hlast⟩ := List.append_inj' hsplit rfl
    cases hlast
    exact h symbol fixed hcommand htrailer
  · rw [List.concat_eq_append, ← List.cons_append, ← List.append_assoc] at hsplit
    obtain ⟨rfl, -⟩ := List.append_inj' hsplit rfl
    exact hitems before command rest rfl symbol fixed hcommand htrailer

/-- A bound label. -/
theorem bind (label : Label) : Governed trailers tree [.bind label] := of_forall (by simp)

/-- An instruction that invokes no command. -/
theorem code {instruction : Instruction} (h : instruction.command? = none) :
    Governed trailers tree [.code instruction] := of_forall (by simpa using h)

/-- The mark of a line. -/
theorem mark {span : Span} {mark : List Instruction} (h : IsMark span mark) :
    Governed trailers tree (mark.map .code) := by
  refine of_forall ?_
  rcases h with rfl | rfl
  · simp
  · simp [lineMarker, Instruction.command?]

end Governed

/-- Whether a computation gives no instruction that invokes a command. -/
def InvokesNothing (outcome : Except LoweringError Instruction) : Prop :=
  ∀ instruction, outcome = .ok instruction → instruction.command? = none

section Instructions

/-- An instruction on a symbol other than a command invokes none. -/
private theorem command?_onSymbol {symbol : Symbol} (h : symbol.command? = none) (opcode : Opcode)
    (span : Span) : ((Instruction.onSymbol opcode symbol).atSpan span).command? = none := by
  unfold Instruction.command?
  split
  · exact h
  · rfl

/-- A literal invokes nothing, even if it is bound to a command. -/
private theorem invokesNothing_push (value : Literal) (ty : Ty) (symbol : Option Symbol)
    (span : Span) : InvokesNothing (value.push ty symbol span) := by
  intro instruction h
  cases value with
  | string value => cases symbol <;> cases h <;> rfl
  | null =>
    simp only [Literal.push] at h
    split at h <;> cases h <;> rfl
  | _ =>
    cases h
    rfl

private theorem invokesNothing_onLocal (opcode : Opcode) (name : String) (symbol : Option Symbol)
    (span : Span) : InvokesNothing (onLocal opcode name symbol span) := by
  intro instruction h
  unfold onLocal at h
  split at h <;> cases h
  exact command?_onSymbol rfl opcode span

private theorem invokesNothing_onGame (opcode : Opcode) (name : String) (symbol : Option Symbol)
    (span : Span) : InvokesNothing (onGame opcode name symbol span) := by
  intro instruction h
  unfold onGame at h
  split at h <;> cases h
  exact command?_onSymbol rfl opcode span

/-- An instruction without a symbol invokes nothing. -/
private theorem command?_of_symbol? {instruction : Instruction} (h : instruction.symbol? = none) :
    instruction.command? = none := by
  unfold Instruction.command?
  split
  · rw [h]
    rfl
  · rfl

private theorem invokesNothing_arithmeticCode (op : ArithmeticOp) (ty : Ty) (span : Span) :
    InvokesNothing (arithmeticCode op ty span) := by
  intro instruction h
  unfold arithmeticCode at h
  split at h <;> cases h
  exact command?_of_symbol? rfl

private theorem invokesNothing_store (target : Expr) : InvokesNothing target.store := by
  cases target with
  | localVar name ty symbol span => exact invokesNothing_onLocal _ name symbol span
  | element name index ty symbol span => exact invokesNothing_onLocal _ name symbol span
  | gameVar name secondary ty symbol span => exact invokesNothing_onGame _ name symbol span
  | _ =>
    intro instruction h
    cases h

private theorem invokesNothing_defaultPush (ty : Ty) (span : Span) :
    InvokesNothing (ty.defaultPush span) := by
  intro instruction h
  unfold Ty.defaultPush at h
  split at h
  case h_2 => split at h <;> cases h <;> rfl
  all_goals cases h <;> rfl

private theorem invokesNothing_discard (ty : Ty) (span : Span) :
    InvokesNothing (ty.discard span) := by
  intro instruction h
  unfold Ty.discard at h
  split at h <;> cases h
  rfl

private theorem invokesNothing_comparisonBranch (comparison : Comparison) (ty : Ty) (label : Label)
    (span : Span) : InvokesNothing (comparisonBranch comparison ty label span) := by
  intro instruction h
  unfold comparisonBranch at h
  split at h <;> cases h
  exact command?_of_symbol? rfl

end Instructions

namespace StraightCode

/-- Whether code, where it is given, invokes commands with a trailer by trailed calls of a tree or
by bare names only. -/
def IsGoverned (trailers : Trailers) (tree : List Expr) (outcome : StraightCode) : Prop :=
  ∀ code, outcome = .ok code → Governed trailers tree (code.map .code)

theorem isGoverned_error (error : LoweringError) : IsGoverned trailers tree (.error error) := by
  intro code hcode
  cases hcode

theorem isGoverned_nil : IsGoverned trailers tree (.ok []) := by
  intro code hcode
  cases hcode
  exact .nil

theorem isGoverned_ok_singleton {instruction : Instruction} (h : instruction.command? = none) :
    IsGoverned trailers tree (.ok [instruction]) := by
  intro code hcode
  cases hcode
  exact .code h

theorem isGoverned_single {outcome : Except LoweringError Instruction}
    (h : InvokesNothing outcome) : IsGoverned trailers tree (single outcome) := by
  intro code hcode
  obtain ⟨instruction, hinstruction, rfl⟩ := single_eq_ok_iff.mp hcode
  exact .code (h instruction hinstruction)

theorem IsGoverned.append {first second : StraightCode} (hfirst : IsGoverned trailers tree first)
    (hsecond : IsGoverned trailers tree second) : IsGoverned trailers tree (first ++ second) := by
  intro code hcode
  obtain ⟨before, after, hbefore, hafter, rfl⟩ := append_eq_ok_iff.mp hcode
  rw [List.map_append]
  exact (hfirst before hbefore).append (hsecond after hafter)

theorem isGoverned_bind {α : Type} {outcome : Except LoweringError α} {code : α → StraightCode}
    (h : ∀ value, outcome = .ok value → IsGoverned trailers tree (code value)) :
    IsGoverned trailers tree (outcome >>= code) := by
  cases outcome with
  | ok value => exact h value rfl
  | error error => exact isGoverned_error error

theorem isGoverned_ofList {outcomes : List (Except LoweringError Instruction)}
    (h : ∀ outcome ∈ outcomes, InvokesNothing outcome) :
    IsGoverned trailers tree (ofList outcomes) := by
  induction outcomes with
  | nil => exact isGoverned_nil
  | cons first rest ih =>
    rw [List.forall_mem_cons] at h
    exact (isGoverned_single h.1).append (ih h.2)

end StraightCode

open StraightCode

/-- The use of a bare name is one. -/
private theorem isGoverned_useOfName {name : String} {ty : Ty} {symbol : Option Symbol}
    {span : Span} (h : .identifier name ty symbol span ∈ tree) :
    IsGoverned trailers tree (single (useOfName name symbol span)) := by
  intro code hcode
  obtain ⟨instruction, hinstruction, rfl⟩ := single_eq_ok_iff.mp hcode
  exact Governed.nil.concat fun _ _ _ _ =>
    .inr ⟨name, ty, symbol, span, h, hinstruction⟩

/-- The command of a call is the one that its head is bound to. -/
private theorem symbol_of_invocation {head : CallHead} {command : Instruction}
    {symbol : CommandSymbol} (h : head.invocation = .ok command)
    (hcommand : command.command? = some symbol) :
    head.kind = .command ∧ head.symbol = some (.command symbol) := by
  unfold CallHead.invocation at h
  split at h
  · next hkind =>
    split at h <;> cases h
    next bound hbound =>
    cases hcommand
    exact ⟨hkind, hbound⟩
  all_goals
    split at h
    · split at h <;> cases h
      cases hcommand
    · cases h

/-- A call to a command that has a trailer has it. -/
private theorem fixed?_of_invocation {head : CallHead} {args : List Expr}
    (hname : (Expr.call head args).BearsName) {command : Instruction} {symbol : CommandSymbol}
    (h : head.invocation = .ok command) (hcommand : command.command? = some symbol) :
    trailers.fixed? head = trailers.lookup symbol.name := by
  obtain ⟨hkind, hsymbol⟩ := symbol_of_invocation h hcommand
  rw [Trailers.fixed?, hkind, hname _ hsymbol]
  rfl

/-- A call pushes the trailer of its command right before it invokes the command. -/
private theorem isGoverned_invocation {head : CallHead} {args : List Expr}
    (hcall : .call head args ∈ tree) (hname : (Expr.call head args).BearsName)
    {trailer : List Instruction}
    (htrailer : head.trailer args (trailers.fixed? head) = .ok trailer) :
    IsGoverned trailers tree (.ok trailer ++ single head.invocation) := by
  intro code hcode
  obtain ⟨_, _, ⟨⟩, hsingle, rfl⟩ := append_eq_ok_iff.mp hcode
  obtain ⟨invocation, hinvoke, rfl⟩ := single_eq_ok_iff.mp hsingle
  have hhas {symbol : CommandSymbol} (hcommand : invocation.command? = some symbol) :
      trailers.fixed? head = trailers.lookup symbol.name :=
    fixed?_of_invocation hname hinvoke hcommand
  rw [List.map_append]
  cases hfixed : trailers.fixed? head with
  | none =>
    rw [hfixed] at htrailer
    cases htrailer
    refine Governed.nil.concat fun symbol fixed hcommand hlookup => ?_
    rw [hhas hcommand, hlookup] at hfixed
    cases hfixed
  | some fixed =>
    rw [hfixed, CallHead.trailer] at htrailer
    cases hcodes : typeCodes (args.drop fixed) with
    | error error =>
      rw [hcodes] at htrailer
      cases htrailer
    | ok codes =>
      rw [hcodes] at htrailer
      cases htrailer
      refine Governed.concat (.code rfl) fun symbol other hcommand hlookup => ?_
      rw [hhas hcommand, hlookup] at hfixed
      cases hfixed
      exact .inl ⟨head, args, codes, hcall, hinvoke, hcodes, rfl⟩

mutual

/-- The code of a value expression is governed. -/
theorem Expr.isGoverned_code (hnames : ∀ e ∈ tree, e.BearsName) :
    ∀ (place : Place) (e : Expr), e.parts ⊆ tree → IsGoverned trailers tree (e.code trailers place)
  | place, .literal value ty symbol span, _ => by
    rw [code]
    exact isGoverned_single (invokesNothing_push value ty symbol span)
  | place, .identifier name ty symbol span, h => by
    rw [code]
    exact isGoverned_useOfName (h List.mem_cons_self)
  | place, .localVar name _ symbol span, _ => by
    rw [code]
    exact isGoverned_single (invokesNothing_onLocal _ name symbol span)
  | place, .element name index _ symbol span, h => by
    rw [code]
    rw [parts, List.cons_subset] at h
    exact isGoverned_bind fun push hpush => (isGoverned_code hnames .value index h.2).append
      (isGoverned_ok_singleton (invokesNothing_onLocal _ name symbol span push hpush))
  | place, .gameVar name secondary _ symbol span, _ => by
    rw [code]
    exact isGoverned_single (invokesNothing_onGame _ name symbol span)
  | place, .constant _ _ value _, h => by
    rw [code]
    rw [parts, List.cons_subset] at h
    exact isGoverned_code hnames .value value h.2
  | place, .openConstant name _ span, _ => by
    rw [code]
    exact isGoverned_error _
  | place, .condition _ _ _ span, _ => by
    rw [code]
    exact isGoverned_error _
  | .value, .arithmetic left op right ty span, _ => by
    rw [code]
    exact isGoverned_error _
  | .operand, .arithmetic left op right ty span, h => by
    rw [code]
    rw [parts, List.cons_subset, List.append_subset] at h
    exact (isGoverned_code hnames .operand left h.2.1).append
      ((isGoverned_code hnames .operand right h.2.2).append
        (isGoverned_single (invokesNothing_arithmeticCode op ty span)))
  | place, .calculation inner _ _, h => by
    rw [code]
    rw [parts, List.cons_subset] at h
    exact isGoverned_code hnames .operand inner h.2
  | place, .paren inner _, h => by
    rw [code]
    rw [parts, List.cons_subset] at h
    exact isGoverned_code hnames place inner h.2
  | place, .call head args, h => by
    rw [code]
    rw [parts, List.cons_subset] at h
    exact isGoverned_bind fun trailer htrailer => (isGoverned_codes hnames args h.2).append
      (isGoverned_invocation h.1 (hnames _ h.1) htrailer)
  | place, .joined parts span, h => by
    rw [code]
    rw [Expr.parts, List.cons_subset] at h
    exact (isGoverned_codes hnames parts h.2).append (isGoverned_ok_singleton rfl)

/-- The code of value expressions is governed. -/
theorem Expr.isGoverned_codes (hnames : ∀ e ∈ tree, e.BearsName) :
    ∀ es : List Expr, Expr.partsOf es ⊆ tree → IsGoverned trailers tree (Expr.codes trailers es)
  | [], _ => by
    rw [codes]
    exact isGoverned_nil
  | first :: rest, h => by
    rw [codes]
    rw [partsOf, List.append_subset] at h
    exact (isGoverned_code hnames .value first h.1).append (isGoverned_codes hnames rest h.2)

end

/-- The code of an assignment is governed. -/
private theorem isGoverned_assignmentCode (hnames : ∀ e ∈ tree, e.BearsName)
    (targets values : List Expr) (htargets : Expr.partsOf targets ⊆ tree)
    (hvalues : Expr.partsOf values ⊆ tree) :
    IsGoverned trailers tree (assignmentCode trailers targets values) := by
  cases targets with
  | nil => exact isGoverned_nil
  | cons first rest =>
    unfold assignmentCode
    simp only
    split
    · exact isGoverned_error _
    · have hstores : IsGoverned trailers tree (ofList ((first :: rest).reverse.map Expr.store)) :=
        isGoverned_ofList fun outcome houtcome => by
          obtain ⟨target, -, rfl⟩ := List.mem_map.mp houtcome
          exact invokesNothing_store target
      refine IsGoverned.append ?_ ((Expr.isGoverned_codes hnames values hvalues).append hstores)
      rw [Expr.partsOf, List.append_subset] at htargets
      cases first with
      | element name index ty symbol span =>
        rw [Expr.parts, List.cons_subset] at htargets
        exact Expr.isGoverned_code hnames .value index htargets.1.2
      | _ => exact isGoverned_nil

/-- The code of a statement without control flow is governed. -/
private theorem Stmt.isGoverned_straight? (hnames : ∀ e ∈ tree, e.BearsName) {s : Stmt}
    (htree : s.parts ⊆ tree) {outcome : StraightCode} (h : s.straight? trailers = some outcome) :
    IsGoverned trailers tree outcome := by
  cases s with
  | leave values span =>
    cases h
    exact (Expr.isGoverned_codes hnames values htree).append (isGoverned_ok_singleton rfl)
  | assign targets values span =>
    cases h
    rw [Stmt.parts, List.append_subset] at htree
    exact isGoverned_assignmentCode hnames targets values htree.1 htree.2
  | declare name ty symbol initial span =>
    cases h
    refine isGoverned_bind fun declared _ => IsGoverned.append ?_ (isGoverned_ok_singleton rfl)
    cases initial with
    | some value =>
      rw [Stmt.parts, Option.toList_some, Expr.partsOf, List.append_subset] at htree
      exact Expr.isGoverned_code hnames .value value htree.1
    | none => exact isGoverned_single (invokesNothing_defaultPush ty span)
  | declareArray name ty symbol size span =>
    cases h
    refine isGoverned_bind fun declared _ => ?_
    split
    · exact (Expr.isGoverned_code hnames .value size htree).append (isGoverned_ok_singleton rfl)
    · exact isGoverned_error _
  | evaluate value span =>
    cases h
    refine (Expr.isGoverned_code hnames .value value htree).append
      (isGoverned_ofList fun outcome hmem => ?_)
    obtain ⟨ty, -, rfl⟩ := List.mem_map.mp hmem
    exact invokesNothing_discard ty span
  | empty span =>
    cases h
    exact isGoverned_nil
  | block | ifThen | ifElse | whileLoop | switch => cases h

/-- The items of a condition are governed. -/
theorem TestCode.governed (hnames : ∀ e ∈ tree, e.BearsName) {test : Expr}
    {onTrue onFalse : Label} {items : List Item} (h : TestCode trailers test onTrue onFalse items)
    (htree : test.parts ⊆ tree) : Governed trailers tree items := by
  induction h with
  | both hleft hright ihleft ihright =>
    rw [Expr.parts, List.cons_subset, List.append_subset] at htree
    exact (ihleft htree.2.1).append ((Governed.bind _).append (ihright htree.2.2))
  | either hleft hright ihleft ihright =>
    rw [Expr.parts, List.cons_subset, List.append_subset] at htree
    exact (ihleft htree.2.1).append ((Governed.bind _).append (ihright htree.2.2))
  | @compare left right comparison span onTrue onFalse first second branch hleft hright hbranch =>
    rw [Expr.parts, List.cons_subset, List.append_subset] at htree
    rw [List.map_append, List.map_append]
    refine ((Expr.isGoverned_code hnames .value left htree.2.1 first hleft).append
      (Expr.isGoverned_code hnames .value right htree.2.2 second hright)).append ?_
    exact (Governed.code (invokesNothing_comparisonBranch _ _ _ _ branch hbranch)).append
      (.code rfl)
  | paren hinner ih =>
    rw [Expr.parts, List.cons_subset] at htree
    exact ih htree.2

/-- The branch that follows a `switch` is governed. -/
private theorem governed_skipCode (cases : List Case) (done : Label) (fallback : Option Label)
    (span : Span) : Governed trailers tree ((skipCode cases done fallback span).map .code) := by
  unfold skipCode
  split
  · exact .nil
  · exact .code rfl

variable {scope : Scope}

mutual

/-- The items of a statement are governed. -/
theorem StmtCode.governed (hnames : ∀ e ∈ tree, e.BearsName) : ∀ {s : Stmt} {base : Nat}
    {items : List Item} {tables : List SwitchTable},
    StmtCode trailers scope s base items tables → s.parts ⊆ tree → Governed trailers tree items
  | _, _, _, _, .straight hmark hcode, htree => by
    rw [List.map_append]
    exact (Governed.mark hmark).append (Stmt.isGoverned_straight? hnames htree hcode _ rfl)
  | _, _, _, _, .block hbody, htree => hbody.governed hnames htree
  | _, _, _, _, .ifThen hmark htest harm, htree => by
    rw [Stmt.parts, List.append_subset] at htree
    exact (Governed.mark hmark).append ((htest.governed hnames htree.1).append
      ((Governed.bind _).append ((harm.governed hnames htree.2).append
        ((Governed.code rfl).append (.bind _)))))
  | _, _, _, _, .ifElse hmark htest hfirst hsecond, htree => by
    rw [Stmt.parts, List.append_subset, List.append_subset] at htree
    exact (Governed.mark hmark).append ((htest.governed hnames htree.1).append
      ((Governed.bind _).append ((hfirst.governed hnames htree.2.1).append
        ((Governed.code rfl).append ((Governed.bind _).append
          ((hsecond.governed hnames htree.2.2).append ((Governed.code rfl).append (.bind _))))))))
  | _, _, _, _, .whileLoop hmark htest hbody, htree => by
    rw [Stmt.parts, List.append_subset] at htree
    exact (Governed.mark hmark).append ((Governed.bind _).append
      ((htest.governed hnames htree.1).append ((Governed.bind _).append
        ((hbody.governed hnames htree.2).append ((Governed.code rfl).append (.bind _))))))
  | _, _, _, _, @StmtCode.switch _ _ _ subject cases span base mark code done fallback entries
      caseItems nested hmark hsubject hfallback hcases, htree => by
    rw [Stmt.parts, List.append_subset] at htree
    rw [List.map_append, List.map_append, List.append_assoc, List.append_assoc]
    refine (Governed.mark hmark).append
      ((Expr.isGoverned_code hnames .value subject htree.1 code hsubject).append ?_)
    exact ((Governed.code rfl).append (governed_skipCode cases done fallback span)).append
      ((hcases.governed hnames htree.2).append (.bind done))

/-- The items of statements are governed. -/
theorem StmtsCode.governed (hnames : ∀ e ∈ tree, e.BearsName) : ∀ {body : List Stmt} {base : Nat}
    {items : List Item} {tables : List SwitchTable},
    StmtsCode trailers scope body base items tables → Stmt.partsOf body ⊆ tree →
    Governed trailers tree items
  | _, _, _, _, .nil, _ => .nil
  | _, _, _, _, .cons hfirst hrest, htree => by
    rw [Stmt.partsOf, List.append_subset] at htree
    exact (hfirst.governed hnames htree.1).append (hrest.governed hnames htree.2)

/-- The items of the cases of a switch are governed. -/
theorem CasesCode.governed (hnames : ∀ e ∈ tree, e.BearsName) : ∀ {cases : List Case} {base : Nat}
    {done : Label} {fallback : Option Label} {entries : List TableCase} {items : List Item}
    {tables : List SwitchTable},
    CasesCode trailers scope cases base done fallback entries items tables →
    Case.partsOf cases ⊆ tree → Governed trailers tree items
  | _, _, _, _, _, _, _, .nil, _ => .nil
  | _, _, _, _, _, _, _, .cons hlabel hkeys hbody hrest, htree => by
    rw [Case.partsOf, List.append_subset] at htree
    exact (Governed.bind _).append ((hbody.governed hnames htree.1).append
      ((Governed.code rfl).append (hrest.governed hnames htree.2)))

end

/-- The return after a script body is governed. -/
private theorem isGoverned_defaultLeaveCode (returns : List Ty) (span : Span) :
    IsGoverned trailers tree (defaultLeaveCode returns span) := by
  refine IsGoverned.append (isGoverned_ofList fun outcome hmem => ?_) (isGoverned_ok_singleton rfl)
  obtain ⟨ty, -, rfl⟩ := List.mem_map.mp hmem
  exact invokesNothing_defaultPush ty span

/-- An instruction of a block is an item, and what comes last before it in the block comes last
before the item. -/
private theorem CompiledScript.exists_split_of_mem_blocks {script : CompiledScript} {block : Block}
    (hblock : block ∈ script.blocks) {before after : List Instruction} {command : Instruction}
    (hsplit : block.instructions = before ++ command :: after) :
    ∃ front back, script.items = front ++ .code command :: back ∧
      lastCode? front = before.getLast? := by
  obtain ⟨first, second, hblocks⟩ := List.append_of_mem hblock
  refine ⟨itemsOf first ++ .bind block.label :: before.map .code,
    after.map .code ++ itemsOf second, ?_, lastCode?_bind _ _ _⟩
  rw [CompiledScript.items, hblocks, itemsOf, List.flatMap_append, List.flatMap_cons, Block.items,
    hsplit]
  simp [itemsOf]

namespace Generator

variable {generator : Generator} {decl : ScriptDecl} {script : CompiledScript}

/-- The items of a compiled script are governed. -/
theorem governed_items (h : generator.handlers = trailers.handlers)
    (hnames : ∀ e ∈ Stmt.partsOf decl.body, e.BearsName)
    (hrun : (generator.script decl).1 = .ok script) :
    Governed trailers (Stmt.partsOf decl.body) script.items := by
  obtain ⟨items, code, hbody, hleave, hitems, -⟩ := script_lays h hrun
  rw [hitems]
  exact (Governed.bind .entry).append ((hbody.governed hnames (List.Subset.refl _)).append
    (isGoverned_defaultLeaveCode _ _ code hleave))

/-- Where a compiled script invokes a command that has a handler, either a call of the declaration
does, and the instruction right before it in the same block pushes the argument trailer that the
handler gives the call; or a bare name of the declaration does. -/
theorem script_invocations (hhandlers : generator.handlers.AreTrailers)
    (hnames : ∀ e ∈ Stmt.partsOf decl.body, e.BearsName)
    (hrun : (generator.script decl).1 = .ok script) {block : Block} (hblock : block ∈ script.blocks)
    {before after : List Instruction} {command : Instruction}
    (hsplit : block.instructions = before ++ command :: after) {symbol : CommandSymbol}
    (hcommand : command.command? = some symbol) {handler : Handler}
    (hhandler : generator.handlers.find? symbol.name = some handler) :
    (∃ fixed, handler = .argumentTrailer fixed ∧
      IsTrailedCall (Stmt.partsOf decl.body) fixed command before.getLast?) ∨
    IsBareName (Stmt.partsOf decl.body) command := by
  obtain ⟨trailers, htrailers⟩ := hhandlers.exists_trailers
  rw [htrailers, trailers.find?_handlers] at hhandler
  obtain ⟨fixed, hfixed, rfl⟩ := Option.map_eq_some_iff.mp hhandler
  obtain ⟨front, back, hitems, hlast⟩ := CompiledScript.exists_split_of_mem_blocks hblock hsplit
  rcases governed_items htrailers hnames hrun front command back hitems symbol fixed hcommand
    hfixed with hcall | hbare
  · exact .inl ⟨fixed, rfl, hlast ▸ hcall⟩
  · exact .inr hbare

/-- A generator with a trailer for a command that takes any number of arguments after the first. -/
private def queueGenerator : Generator :=
  { handlers := ⟨[("queue", .argumentTrailer 1)]⟩, emitter := .new false }

/-- A script that queues in the condition of a loop, in an argument of that call, and in a string
that is joined. -/
private def queueInLoop : ScriptDecl :=
  let one : Expr := .literal (.int 1) .int none .unknown
  let text : Expr := .literal (.string "x") .string none .unknown
  let queue (args : List Expr) : Expr :=
    .call ⟨.command, "queue", false, .int, some (.command ⟨"queue", [.int], [.int]⟩), .unknown⟩ args
  ⟨⟨.proc, "ask", [], []⟩, [], [
    .whileLoop (.condition (queue [one, queue [one, text]]) (.compare .equals) one .unknown)
      (.evaluate (.joined [text, queue [one]] .unknown) .unknown) .unknown], .unknown⟩

theorem script_invocations_queueInLoop :
    ∃ script block before command after, (queueGenerator.script queueInLoop).1 = .ok script ∧
      block ∈ script.blocks ∧ block.instructions = before ++ command :: after ∧
      command.command? = some ⟨"queue", [.int], [.int]⟩ ∧ ∃ fixed,
        IsTrailedCall (Stmt.partsOf queueInLoop.body) fixed command before.getLast? := by
  obtain ⟨script, hscript⟩ := exists_script_of_isOk
    (show (queueGenerator.script queueInLoop).1.isOk = true by decide +kernel)
  -- the outer call is the seventh instruction of the block that tests the condition
  have hseventh : ((queueGenerator.script queueInLoop).1.toOption.bind fun script =>
      script.blocks[1]?.bind fun block => block.instructions[6]?.bind Instruction.command?) =
        some ⟨"queue", [.int], [.int]⟩ := by decide +kernel
  rw [hscript, Except.toOption, Option.bind_some] at hseventh
  obtain ⟨block, hblock, hseventh⟩ := Option.bind_eq_some_iff.mp hseventh
  obtain ⟨command, hcommand, hsymbol⟩ := Option.bind_eq_some_iff.mp hseventh
  have hsplit : block.instructions =
      block.instructions.take 6 ++ command :: block.instructions.drop 7 := by
    obtain ⟨hlt, rfl⟩ := List.getElem?_eq_some_iff.mp hcommand
    rw [← List.drop_eq_getElem_cons hlt, List.take_append_drop]
  refine ⟨script, block, _, command, _, hscript, List.mem_of_getElem? hblock, hsplit, hsymbol, ?_⟩
  have hhandlers : queueGenerator.handlers.AreTrailers := by
    simp [Handlers.AreTrailers, queueGenerator]
  have hnames : ∀ e ∈ Stmt.partsOf queueInLoop.body, e.BearsName := by decide +kernel
  rcases script_invocations hhandlers hnames hscript (List.mem_of_getElem? hblock) hsplit hsymbol
    rfl with ⟨fixed, -, hcall⟩ | ⟨name, ty, symbol, span, hname, -⟩
  · exact ⟨fixed, hcall⟩
  · have hnone : ∀ e ∈ Stmt.partsOf queueInLoop.body, e.kind ≠ .identifier := by decide +kernel
    exact absurd rfl (hnone _ hname)

/-- A script that invokes the command by its bare name. -/
private def bareQueue : ScriptDecl :=
  ⟨⟨.proc, "ask", [], []⟩, [], [.evaluate
    (.identifier "queue" .unit (some (.command ⟨"queue", [], []⟩)) .unknown) .unknown], .unknown⟩

theorem not_always_trailed_bareQueue :
    ¬∀ (generator : Generator) (decl : ScriptDecl) (script : CompiledScript),
      generator.handlers.AreTrailers → (∀ e ∈ Stmt.partsOf decl.body, e.BearsName) →
      (generator.script decl).1 = .ok script → ∀ block ∈ script.blocks, ∀ before command after,
        block.instructions = before ++ command :: after → ∀ symbol,
        command.command? = some symbol → (generator.handlers.find? symbol.name).isSome = true →
        ∃ codes span, before.getLast? = some ((Instruction.pushString codes).atSpan span) := by
  intro h
  obtain ⟨script, hscript⟩ := exists_script_of_isOk
    (show (queueGenerator.script bareQueue).1.isOk = true by decide +kernel)
  have hblocks : (queueGenerator.script bareQueue).1.toOption.map CompiledScript.blocks =
      some [⟨.entry, [(Instruction.onSymbol .command (.command ⟨"queue", [], []⟩)).atSpan .unknown,
        { opcode := .leave : Instruction }.atSpan .unknown]⟩] := by decide +kernel
  rw [hscript] at hblocks
  have hhandlers : queueGenerator.handlers.AreTrailers := by
    simp [Handlers.AreTrailers, queueGenerator]
  obtain ⟨codes, span, hlast⟩ := h queueGenerator bareQueue script hhandlers (by decide +kernel)
    hscript _ (by rw [Option.some.inj hblocks]; exact List.mem_cons_self) [] _ _ rfl _ rfl
    (by decide +kernel)
  cases hlast

end Generator

end ScriptBackend

import ScriptBackend.Proofs.Flow.Places
import ScriptBackend.Proofs.Lowering.References

/-!
# Comparisons of emitted scripts

Every conditional branch of an emitted script belongs to one comparison of the declaration, and the
branches come in the order of the comparisons. The code of the two operands stands right before the
branch and in the same block, and the branch that is taken when the comparison fails stands right
after it. Code of an operand is never empty, and it pushes a constant integer last only where that
push is all of it.
-/

namespace ScriptBackend

/-- A comparison of two values in a tree. -/
structure ComparisonSite where
  left : Expr
  comparison : Comparison
  right : Expr
  /-- Where the comparison stands. -/
  span : Span

/-- The comparisons of a condition, from left to right. -/
def Expr.comparisons : Expr → List ComparisonSite
  | .condition left (.join _) right _ => left.comparisons ++ right.comparisons
  | .condition left (.compare comparison) right span => [⟨left, comparison, right, span⟩]
  | .paren inner _ => inner.comparisons
  | _ => []

mutual

/-- The comparisons of a statement, in the order of its text. -/
def Stmt.comparisons : Stmt → List ComparisonSite
  | .block body _ => Stmt.comparisonsOf body
  | .ifThen test onTrue _ => test.comparisons ++ onTrue.comparisons
  | .ifElse test onTrue onFalse _ =>
    test.comparisons ++ (onTrue.comparisons ++ onFalse.comparisons)
  | .whileLoop test body _ => test.comparisons ++ body.comparisons
  | .switch _ _ cases _ => Case.comparisonsOf cases
  | .leave .. | .assign .. | .declare .. | .declareArray .. | .evaluate .. | .empty .. => []

/-- The comparisons of statements in order. -/
def Stmt.comparisonsOf : List Stmt → List ComparisonSite
  | [] => []
  | first :: rest => first.comparisons ++ Stmt.comparisonsOf rest

/-- The comparisons inside the cases of a switch, in order. -/
def Case.comparisonsOf : List Case → List ComparisonSite
  | [] => []
  | .mk _ _ body _ :: rest => Stmt.comparisonsOf body ++ Case.comparisonsOf rest

end

namespace CompiledScript

/-- The positions of the conditional branches in the sequence of a script. -/
def conditionals (script : CompiledScript) : List Nat :=
  (script.sequence.map Prod.snd).findIdxs fun instruction => instruction.opcode.isConditional

/-- Whether instructions stand side by side in the sequence of a script from a position on, all in
one block. -/
def HasRun (script : CompiledScript) (start : Nat) (run : List Instruction) : Prop :=
  ∃ block first, ∀ index instruction, run[index]? = some instruction →
    script.sequence[start + index]? = some (⟨block, first + index⟩, instruction)

end CompiledScript

/-- Whether the conditional branch at a position of a script was emitted for a comparison. -/
inductive ComparisonSite.EmittedAt (trailers : Trailers) (script : CompiledScript)
    (site : ComparisonSite) : Nat → Prop where
  | intro {first second : List Instruction} {branch : Instruction} {onTrue onFalse : Label}
      {start : Nat} (hleft : site.left.code trailers .value = .ok first)
      (hright : site.right.code trailers .value = .ok second)
      (hbranch : comparisonBranch site.comparison site.left.ty onTrue site.span = .ok branch)
      (hrun : script.HasRun start (first ++ second ++ [branch, branchAlways onFalse site.span])) :
      site.EmittedAt trailers script (start + (first ++ second).length)

section Operands

/-- An invocation runs something. -/
private theorem opcode_invocation_ne {head : CallHead} {instruction : Instruction}
    (h : head.invocation = .ok instruction) : instruction.opcode ≠ .pushConstantInt := by
  unfold CallHead.invocation at h
  split at h <;> split at h <;> try split at h
  all_goals cases h <;> exact Opcode.noConfusion

/-- Arithmetic pushes no constant. -/
private theorem opcode_arithmeticCode_ne {op : ArithmeticOp} {ty : Ty} {span : Span}
    {instruction : Instruction} (h : arithmeticCode op ty span = .ok instruction) :
    instruction.opcode ≠ .pushConstantInt := by
  unfold arithmeticCode at h
  split at h
  · next opcode hopcode =>
    cases h
    obtain ⟨stack, -, hopcode⟩ := Option.bind_eq_some_iff.mp hopcode
    cases op <;> cases stack <;> cases hopcode <;> exact Opcode.noConfusion
  · cases h

/-- Whether code, where it is given, is not empty and has nothing before a constant integer that it
pushes last. -/
def StraightCode.EndsInValue (outcome : StraightCode) : Prop :=
  ∀ code, outcome = .ok code → ∃ before last, code = before ++ [last] ∧
    (last.opcode = .pushConstantInt → before = [])

namespace StraightCode

theorem endsInValue_error (error : LoweringError) : EndsInValue (.error error) := by
  intro code hcode
  cases hcode

theorem endsInValue_single (outcome : Except LoweringError Instruction) :
    EndsInValue (single outcome) := by
  intro code hcode
  obtain ⟨instruction, -, rfl⟩ := single_eq_ok_iff.mp hcode
  exact ⟨[], instruction, rfl, fun _ => rfl⟩

/-- Code that ends in an instruction which pushes no constant integer. -/
theorem endsInValue_append {first second : StraightCode}
    (h : ∀ code, second = .ok code → ∃ before last, code = before ++ [last] ∧
      last.opcode ≠ .pushConstantInt) : EndsInValue (first ++ second) := by
  intro code hcode
  obtain ⟨earlier, later, -, hlater, rfl⟩ := append_eq_ok_iff.mp hcode
  obtain ⟨before, last, rfl, hopcode⟩ := h later hlater
  exact ⟨earlier ++ before, last, (List.append_assoc ..).symm, fun h => absurd h hopcode⟩

theorem endsInValue_bind {α : Type} {outcome : Except LoweringError α} {code : α → StraightCode}
    (h : ∀ value, outcome = .ok value → EndsInValue (code value)) :
    EndsInValue (outcome >>= code) := by
  cases outcome with
  | ok value => exact h value rfl
  | error error => exact endsInValue_error error

end StraightCode

open StraightCode

/-- The code of an expression is not empty and has nothing before a constant integer that it pushes
last. -/
theorem Expr.endsInValue_code (trailers : Trailers) :
    ∀ (e : Expr) (place : Place), EndsInValue (e.code trailers place)
  | .literal value ty symbol span, _ => by
    rw [code]
    exact endsInValue_single _
  | .identifier name _ symbol span, _ => by
    rw [code]
    exact endsInValue_single _
  | .localVar name _ symbol span, _ => by
    rw [code]
    exact endsInValue_single _
  | .element name index _ symbol span, _ => by
    rw [code]
    refine endsInValue_bind fun push hpush => endsInValue_append fun code hcode => ?_
    cases hcode
    refine ⟨[], push, rfl, ?_⟩
    unfold onLocal at hpush
    split at hpush
    · cases hpush
      exact Opcode.noConfusion
    · cases hpush
  | .gameVar name secondary _ symbol span, _ => by
    rw [code]
    exact endsInValue_single _
  | .constant _ _ value _, _ => by
    rw [code]
    exact endsInValue_code trailers value .value
  | .openConstant name _ span, _ => by
    rw [code]
    exact endsInValue_error _
  | .condition _ _ _ span, _ => by
    rw [code]
    exact endsInValue_error _
  | .arithmetic left op right ty span, .value => by
    rw [code]
    exact endsInValue_error _
  | .arithmetic left op right ty span, .operand => by
    rw [code]
    refine endsInValue_append fun code hcode => ?_
    obtain ⟨before, last, -, hlast, rfl⟩ := append_eq_ok_iff.mp hcode
    obtain ⟨instruction, hinstruction, rfl⟩ := single_eq_ok_iff.mp hlast
    exact ⟨before, instruction, rfl, opcode_arithmeticCode_ne hinstruction⟩
  | .calculation inner _ _, _ => by
    rw [code]
    exact endsInValue_code trailers inner .operand
  | .paren inner _, place => by
    rw [code]
    exact endsInValue_code trailers inner place
  | .call head args, _ => by
    rw [code]
    refine endsInValue_bind fun trailer _ => endsInValue_append fun code hcode => ?_
    obtain ⟨before, last, -, hlast, rfl⟩ := append_eq_ok_iff.mp hcode
    obtain ⟨instruction, hinstruction, rfl⟩ := single_eq_ok_iff.mp hlast
    exact ⟨before, instruction, rfl, opcode_invocation_ne hinstruction⟩
  | .joined parts span, _ => by
    rw [code]
    refine endsInValue_append fun code hcode => ?_
    cases hcode
    exact ⟨[], _, rfl, Opcode.noConfusion⟩

end Operands

/-- Whether comparisons are those that items were emitted for: the items hold the code of each in
order, and no other conditional branch. -/
inductive Compares (trailers : Trailers) : List ComparisonSite → List Item → Prop where
  | nil : Compares trailers [] []
  /-- Any other item. -/
  | skip {sites : List ComparisonSite} {item : Item} {items : List Item}
      (hitem : ∀ instruction ∈ item.instruction?, instruction.opcode.isConditional = false)
      (hrest : Compares trailers sites items) : Compares trailers sites (item :: items)
  /-- The code of a comparison. -/
  | test {site : ComparisonSite} {sites : List ComparisonSite} {items : List Item}
      {first second : List Instruction} {branch : Instruction} {onTrue onFalse : Label}
      (hleft : site.left.code trailers .value = .ok first)
      (hright : site.right.code trailers .value = .ok second)
      (hbranch : comparisonBranch site.comparison site.left.ty onTrue site.span = .ok branch)
      (hrest : Compares trailers sites items) :
      Compares trailers (site :: sites)
        ((first ++ second ++ [branch, branchAlways onFalse site.span]).map .code ++ items)

namespace Compares

variable {trailers : Trailers} {sites firstSites secondSites : List ComparisonSite}
  {items first second : List Item}

/-- Parts in order have the comparisons of each. -/
theorem append (hfirst : Compares trailers firstSites first)
    (hsecond : Compares trailers secondSites second) :
    Compares trailers (firstSites ++ secondSites) (first ++ second) := by
  induction hfirst with
  | nil => exact hsecond
  | skip hitem _ ih => exact .skip hitem ih
  | test hleft hright hbranch _ ih =>
    rw [List.append_assoc]
    exact .test hleft hright hbranch ih

/-- A bound label belongs to no comparison. -/
theorem bind (label : Label) : Compares trailers [] [.bind label] := by
  refine .skip (fun instruction hinstruction => ?_) .nil
  cases hinstruction

/-- Code without conditional branches belongs to no comparison. -/
theorem code {code : List Instruction}
    (h : ∀ instruction ∈ code, instruction.opcode.isConditional = false) :
    Compares trailers [] (code.map .code) := by
  induction code with
  | nil => exact .nil
  | cons instruction rest ih =>
    rw [List.forall_mem_cons] at h
    exact .skip (by simpa [Item.instruction?] using h.1) (ih h.2)

/-- Plain code belongs to no comparison. -/
theorem plain {code : List Instruction} (h : ∀ instruction ∈ code, instruction.IsPlain) :
    Compares trailers [] (code.map .code) := by
  refine Compares.code fun instruction hmem => ?_
  rw [Opcode.isConditional, (h instruction hmem).isBranch_eq_false, Bool.false_and]

/-- An unconditional branch belongs to no comparison. -/
theorem branchAlways (label : Label) (span : Span) :
    Compares trailers [] [.code (branchAlways label span)] := by
  refine .skip (fun instruction hinstruction => ?_) .nil
  cases hinstruction
  rfl

/-- A mark of a line belongs to no comparison. -/
theorem mark {span : Span} {mark : List Instruction} (h : IsMark span mark) :
    Compares trailers [] (mark.map .code) := by
  rcases h with rfl | rfl
  · exact .nil
  · exact Compares.code (by simp [lineMarker, Opcode.isConditional, Opcode.isBranch])

end Compares

section Shapes

variable {trailers : Trailers} {scope : Scope}

/-- A condition was emitted for its comparisons. -/
theorem TestCode.compares {e : Expr} {onTrue onFalse : Label} {items : List Item}
    (h : TestCode trailers e onTrue onFalse items) : Compares trailers e.comparisons items := by
  induction h with
  | both hleft hright ihleft ihright =>
    rw [Expr.comparisons]
    exact ihleft.append ((Compares.bind _).append ihright)
  | either hleft hright ihleft ihright =>
    rw [Expr.comparisons]
    exact ihleft.append ((Compares.bind _).append ihright)
  | compare hleft hright hbranch =>
    rw [Expr.comparisons, ← List.append_nil (List.map _ _)]
    exact .test hleft hright hbranch .nil
  | paren hinner ih =>
    rw [Expr.comparisons]
    exact ih

mutual

/-- A statement was emitted for its comparisons. -/
theorem StmtCode.compares : ∀ {s : Stmt} {base : Nat} {items : List Item}
    {tables : List SwitchTable}, StmtCode trailers scope s base items tables →
    Compares trailers s.comparisons items
  | s, _, _, _, .straight hmark hcode => by
    have hnone : s.comparisons = [] := by
      cases s <;> first | rfl | cases hcode
    rw [hnone, List.map_append]
    have hplain := Stmt.isPlain_straight? trailers hcode _ rfl
    exact (Compares.mark hmark).append (Compares.plain hplain)
  | _, _, _, _, .block hbody => by
    rw [Stmt.comparisons]
    exact hbody.compares
  | _, _, _, _, @StmtCode.ifThen _ _ _ _ span _ _ whenTrue done _ _ _ hmark htest harm => by
    rw [Stmt.comparisons]
    have hparts := (Compares.mark hmark).append (htest.compares.append
      ((Compares.bind whenTrue).append (harm.compares.append
        ((Compares.branchAlways done span).append (Compares.bind done)))))
    simpa using hparts
  | _, _, _, _, @StmtCode.ifElse _ _ _ _ _ span _ _ whenTrue whenFalse done _ _ _ _ _ hmark htest
      hfirst hsecond => by
    rw [Stmt.comparisons]
    have hparts := (Compares.mark hmark).append (htest.compares.append
      ((Compares.bind whenTrue).append (hfirst.compares.append
        ((Compares.branchAlways done span).append ((Compares.bind whenFalse).append
          (hsecond.compares.append
            ((Compares.branchAlways done span).append (Compares.bind done))))))))
    simpa using hparts
  | _, _, _, _, @StmtCode.whileLoop _ _ _ _ span _ _ start inside done _ _ _ hmark htest hbody => by
    rw [Stmt.comparisons]
    have hparts := (Compares.mark hmark).append ((Compares.bind start).append
      (htest.compares.append ((Compares.bind inside).append (hbody.compares.append
        ((Compares.branchAlways start span).append (Compares.bind done))))))
    simpa using hparts
  | _, _, _, _, @StmtCode.switch _ _ _ _ cases span base _ _ done fallback _ _ _ hmark hsubject _
      hcases => by
    rw [Stmt.comparisons]
    have hskip : Compares trailers [] ((skipCode cases done fallback span).map .code) := by
      unfold skipCode
      split
      · exact .nil
      · exact Compares.branchAlways _ span
    have hchoose : Compares trailers [] [.code (switchOn base span)] := by
      refine .skip (fun instruction hinstruction => ?_) .nil
      cases hinstruction
      rfl
    have hparts := (Compares.mark hmark).append
      ((Compares.plain (Expr.isPlain_code trailers .value _ _ hsubject)).append
        (hchoose.append (hskip.append (hcases.compares.append (Compares.bind done)))))
    simpa using hparts

/-- Statements were emitted for their comparisons. -/
theorem StmtsCode.compares : ∀ {body : List Stmt} {base : Nat} {items : List Item}
    {tables : List SwitchTable}, StmtsCode trailers scope body base items tables →
    Compares trailers (Stmt.comparisonsOf body) items
  | _, _, _, _, .nil => .nil
  | _, _, _, _, .cons hfirst hrest => by
    rw [Stmt.comparisonsOf]
    exact hfirst.compares.append hrest.compares

/-- The cases of a switch were emitted for their comparisons. -/
theorem CasesCode.compares : ∀ {cases : List Case} {base : Nat} {done : Label}
    {fallback : Option Label} {entries : List TableCase} {items : List Item}
    {tables : List SwitchTable},
    CasesCode trailers scope cases base done fallback entries items tables →
    Compares trailers (Case.comparisonsOf cases) items
  | _, _, _, _, _, _, _, .nil => .nil
  | _, _, _, _, _, _, _, @CasesCode.cons _ _ _ _ _ span _ _ done label _ _ _ _ _ _ _ _ _ hbody
      hrest => by
    rw [Case.comparisonsOf]
    exact (Compares.bind label).append (hbody.compares.append
      ((Compares.branchAlways done span).append hrest.compares))

end

end Shapes

section Emitted

variable {trailers : Trailers} {site : ComparisonSite} {first second : List Instruction}
  {branch : Instruction} {onTrue : Label}

/-- The code of both operands is plain. -/
private theorem isPlain_operands (hleft : site.left.code trailers .value = .ok first)
    (hright : site.right.code trailers .value = .ok second) :
    ∀ instruction ∈ first ++ second, instruction.IsPlain :=
  (Expr.isPlain_code trailers .value site.left).append
    (Expr.isPlain_code trailers .value site.right) (first ++ second)
    (StraightCode.append_eq_ok_iff.mpr ⟨first, second, hleft, hright, rfl⟩)

/-- The branch of a comparison is conditional. -/
theorem isConditional_of_comparisonBranch
    (hbranch : comparisonBranch site.comparison site.left.ty onTrue site.span = .ok branch) :
    branch.opcode.isConditional = true := by
  obtain ⟨opcode, -, hconditional, rfl⟩ := exists_opcode_of_comparisonBranch hbranch
  exact hconditional

/-- There is no marker in the code of a comparison. -/
private theorem isMarker_comparison (hleft : site.left.code trailers .value = .ok first)
    (hright : site.right.code trailers .value = .ok second)
    (hbranch : comparisonBranch site.comparison site.left.ty onTrue site.span = .ok branch)
    (onFalse : Label) :
    ∀ instruction ∈ first ++ second ++ [branch, branchAlways onFalse site.span],
      instruction.opcode.isMarker = false := by
  have hmarker : branch.opcode.isMarker = false := by
    have hconditional := isConditional_of_comparisonBranch hbranch
    generalize branch.opcode = opcode at hconditional
    cases opcode <;> first | rfl | cases hconditional
  rw [List.forall_mem_append]
  refine ⟨fun instruction hmem => ?_, ?_⟩
  · exact (isPlain_operands hleft hright instruction hmem).isMarker_eq_false
  · simpa using ⟨hmarker, rfl⟩

/-- The only conditional branch in the code of a comparison stands after its operands. -/
private theorem findIdxs_comparison (hleft : site.left.code trailers .value = .ok first)
    (hright : site.right.code trailers .value = .ok second)
    (hbranch : comparisonBranch site.comparison site.left.ty onTrue site.span = .ok branch)
    (onFalse : Label) (start : Nat) :
    (first ++ second ++ [branch, branchAlways onFalse site.span]).findIdxs
        (fun instruction => instruction.opcode.isConditional) start =
      [start + (first ++ second).length] := by
  have hnone : (first ++ second).findIdxs (fun instruction => instruction.opcode.isConditional)
      start = [] := by
    rw [List.findIdxs_eq_nil_iff]
    intro instruction hmem
    rw [Opcode.isConditional, (isPlain_operands hleft hright instruction hmem).isBranch_eq_false,
      Bool.false_and]
  have halways : (branchAlways onFalse site.span).opcode.isConditional = false := rfl
  rw [List.findIdxs_append, hnone, List.nil_append, List.findIdxs_cons,
    if_pos (isConditional_of_comparisonBranch hbranch), List.findIdxs_singleton, halways]
  rfl

end Emitted

/-- The conditional branches of a part of a script were emitted for its comparisons, in order. -/
theorem Compares.forall₂ {trailers : Trailers} {script : CompiledScript}
    {sites : List ComparisonSite} {items : List Item} (h : Compares trailers sites items)
    (before : List Item) (hitems : script.items = before ++ items) :
    List.Forall₂ (fun position site => site.EmittedAt trailers script position)
      ((realCode items).findIdxs (fun instruction => instruction.opcode.isConditional)
        (realCode before).length) sites := by
  -- the items before the part only count for the positions, and grow along the induction
  induction h generalizing before with
  | nil => exact .nil
  | @skip sites item items hitem _ ih =>
    have hrest := ih (before ++ [item]) (by rw [hitems, List.append_assoc]; rfl)
    cases item with
    | bind label => simpa using hrest
    | code instruction =>
      have hconditional : instruction.opcode.isConditional = false := hitem instruction rfl
      cases hmarker : instruction.opcode.isMarker with
      | true => simpa [realCode, hmarker] using hrest
      | false => simpa [realCode, hmarker, hconditional] using hrest
  | @test site sites items first second branch onTrue onFalse hleft hright hbranch _ ih =>
    have hreal := isMarker_comparison hleft hright hbranch onFalse
    have hrest := ih _ (hitems.trans (List.append_assoc ..).symm)
    rw [realCode_append, realCode_map_code hreal, List.length_append] at hrest
    rw [realCode_append, realCode_map_code hreal, List.findIdxs_append,
      findIdxs_comparison hleft hright hbranch]
    exact .cons (.intro hleft hright hbranch
      (CompiledScript.exists_block_of_items hitems hreal)) hrest

namespace Generator

variable {generator : Generator} {decl : ScriptDecl} {script : CompiledScript}

/-- The conditional branches of an emitted script were emitted for the comparisons of its
declaration, in order. -/
theorem forall₂_conditionals {trailers : Trailers}
    (hhandlers : generator.handlers = trailers.handlers)
    (hrun : (generator.script decl).1 = .ok script) :
    List.Forall₂ (fun position site => site.EmittedAt trailers script position)
      script.conditionals (Stmt.comparisonsOf decl.body) := by
  obtain ⟨items, code, hbody, hleave, hitems, -⟩ := script_lays hhandlers hrun
  have hcode := isPlain_defaultLeaveCode decl.symbol.returns decl.span code hleave
  have hparts := (Compares.bind .entry).append (hbody.compares.append (Compares.plain hcode))
  rw [List.append_nil] at hparts
  rw [CompiledScript.conditionals, CompiledScript.map_snd_sequence, hitems]
  exact hparts.forall₂ [] hitems

end Generator

end ScriptBackend

import ScriptBackend.Proofs.Lowering.Straight

/-!
# Straight code is plain

No instruction of straight code branches, chooses by a switch table or marks a line. Control runs
through such code from its first instruction to its last, unless a return or a jump ends it.
-/

namespace ScriptBackend

/-- Whether an operation neither branches, nor chooses by a switch table, nor marks a line. -/
def Opcode.isPlain (opcode : Opcode) : Bool :=
  !opcode.isBranch && opcode != .switch && !opcode.isMarker

/-- Whether an instruction has a plain operation. -/
def Instruction.IsPlain (instruction : Instruction) : Prop := instruction.opcode.isPlain = true

namespace Instruction.IsPlain

variable {instruction : Instruction}

theorem isBranch_eq_false (h : instruction.IsPlain) : instruction.opcode.isBranch = false := by
  simp only [IsPlain, Opcode.isPlain, Bool.and_eq_true, Bool.not_eq_true'] at h
  exact h.1.1

theorem opcode_ne_switch (h : instruction.IsPlain) : instruction.opcode ≠ .switch := by
  simp only [IsPlain, Opcode.isPlain, Bool.and_eq_true, bne_iff_ne] at h
  exact h.1.2

theorem isMarker_eq_false (h : instruction.IsPlain) : instruction.opcode.isMarker = false := by
  simp only [IsPlain, Opcode.isPlain, Bool.and_eq_true, Bool.not_eq_true'] at h
  exact h.2

end Instruction.IsPlain

/-- Whether a computation gives no instruction but a plain one. -/
def PlainResult (outcome : Except LoweringError Instruction) : Prop :=
  ∀ instruction, outcome = .ok instruction → instruction.IsPlain

namespace StraightCode

/-- Whether code, where it is given, has plain instructions only. -/
def IsPlain (outcome : StraightCode) : Prop :=
  ∀ code, outcome = .ok code → ∀ instruction ∈ code, instruction.IsPlain

/-- Where no code is given there is nothing to check. -/
theorem isPlain_error (error : LoweringError) : IsPlain (.error error) := by
  intro code hcode
  cases hcode

/-- No code at all is plain. -/
theorem isPlain_nil : IsPlain (.ok []) := by
  intro code hcode
  cases hcode
  exact fun _ hmem => absurd hmem List.not_mem_nil

/-- Code of one plain instruction is plain. -/
theorem isPlain_ok_singleton {instruction : Instruction} (h : instruction.IsPlain) :
    IsPlain (.ok [instruction]) := by
  intro code hcode
  cases hcode
  simpa using h

/-- Code of one computed instruction is plain if the instruction is. -/
theorem isPlain_single {outcome : Except LoweringError Instruction} (h : PlainResult outcome) :
    IsPlain (single outcome) := by
  intro code hcode
  obtain ⟨instruction, hinstruction, rfl⟩ := single_eq_ok_iff.mp hcode
  simpa using h instruction hinstruction

/-- Plain code followed by plain code is plain. -/
theorem IsPlain.append {first second : StraightCode} (hfirst : IsPlain first)
    (hsecond : IsPlain second) : IsPlain (first ++ second) := by
  intro code hcode instruction hmem
  obtain ⟨before, after, hbefore, hafter, rfl⟩ := append_eq_ok_iff.mp hcode
  rcases List.mem_append.mp hmem with hmem | hmem
  · exact hfirst before hbefore instruction hmem
  · exact hsecond after hafter instruction hmem

/-- Code that comes after a computation is plain if it is plain for every value. -/
theorem isPlain_bind {α : Type} {outcome : Except LoweringError α} {code : α → StraightCode}
    (h : ∀ value, outcome = .ok value → IsPlain (code value)) : IsPlain (outcome >>= code) := by
  cases outcome with
  | ok value => exact h value rfl
  | error error => exact isPlain_error error

/-- Computed instructions in order are plain code if each is plain. -/
theorem isPlain_ofList {outcomes : List (Except LoweringError Instruction)}
    (h : ∀ outcome ∈ outcomes, PlainResult outcome) : IsPlain (ofList outcomes) := by
  induction outcomes with
  | nil => exact isPlain_nil
  | cons first rest ih =>
    rw [List.forall_mem_cons] at h
    exact (isPlain_single h.1).append (ih h.2)

end StraightCode

open StraightCode

section Instructions

/-- A literal is pushed. -/
theorem plainResult_push (value : Literal) (ty : Ty) (symbol : Option Symbol)
    (span : Span) : PlainResult (value.push ty symbol span) := by
  intro instruction h
  cases value with
  | string value => cases symbol <;> cases h <;> rfl
  | null =>
    simp only [Literal.push] at h
    split at h <;> cases h <;> rfl
  | _ =>
    cases h
    rfl

/-- A bare name is pushed, read or invoked. -/
theorem plainResult_useOfName (name : String) (symbol : Option Symbol) (span : Span) :
    PlainResult (useOfName name symbol span) := by
  intro instruction h
  cases symbol with
  | none => cases h
  | some symbol =>
    cases h
    cases symbol with
    | script symbol =>
      change (if symbol.trigger = .label then Opcode.jump else .gosub).isPlain = true
      split <;> rfl
    | _ => rfl

/-- An operation on a local variable is plain if its opcode is. -/
theorem plainResult_onLocal {opcode : Opcode} (hopcode : opcode.isPlain = true)
    (name : String) (symbol : Option Symbol) (span : Span) :
    PlainResult (onLocal opcode name symbol span) := by
  intro instruction h
  unfold onLocal at h
  split at h
  · cases h
    exact hopcode
  · cases h

/-- An operation on a game variable is plain if its opcode is. -/
theorem plainResult_onGame {opcode : Opcode} (hopcode : opcode.isPlain = true)
    (name : String) (symbol : Option Symbol) (span : Span) :
    PlainResult (onGame opcode name symbol span) := by
  intro instruction h
  unfold onGame at h
  split at h
  · cases h
    exact hopcode
  · cases h

/-- A call runs a command, calls a proc or jumps. -/
theorem plainResult_invocation (head : CallHead) : PlainResult head.invocation := by
  intro instruction h
  unfold CallHead.invocation at h
  split at h <;> split at h <;> try split at h
  all_goals cases h <;> rfl

/-- An arithmetic operation is plain. -/
theorem plainResult_arithmeticCode (op : ArithmeticOp) (ty : Ty) (span : Span) :
    PlainResult (arithmeticCode op ty span) := by
  intro instruction h
  unfold arithmeticCode at h
  split at h
  · next opcode hopcode =>
    cases h
    obtain ⟨stack, -, hopcode⟩ := Option.bind_eq_some_iff.mp hopcode
    cases op <;> cases stack <;> cases hopcode <;> rfl
  · cases h

/-- A store is plain. -/
theorem plainResult_store (target : Expr) : PlainResult target.store := by
  cases target with
  | localVar name ty symbol span => exact plainResult_onLocal rfl name symbol span
  | element name index ty symbol span => exact plainResult_onLocal rfl name symbol span
  | gameVar name secondary ty symbol span =>
    exact plainResult_onGame (by cases secondary <;> rfl) name symbol span
  | _ =>
    intro instruction h
    cases h

/-- A default value is pushed. -/
theorem plainResult_defaultPush (ty : Ty) (span : Span) :
    PlainResult (ty.defaultPush span) := by
  intro instruction h
  unfold Ty.defaultPush at h
  split at h
  case h_2 => split at h <;> cases h <;> rfl
  all_goals cases h <;> rfl

/-- A value is dropped by a plain instruction. -/
theorem plainResult_discard (ty : Ty) (span : Span) : PlainResult (ty.discard span) := by
  intro instruction h
  unfold Ty.discard at h
  split at h
  · cases h
    rfl
  · cases h

end Instructions

variable (trailers : Trailers)

/-- A trailer is pushed. -/
private theorem isPlain_trailer (head : CallHead) (args : List Expr) (fixed : Option Nat) :
    IsPlain (head.trailer args fixed) := by
  cases fixed with
  | none => exact isPlain_nil
  | some fixed => exact isPlain_bind fun codes _ => isPlain_ok_singleton rfl

mutual

/-- The code of a value expression is plain. -/
theorem Expr.isPlain_code : ∀ (place : Place) (e : Expr), IsPlain (e.code trailers place)
  | place, .literal value ty symbol span => by
    rw [code]
    exact isPlain_single (plainResult_push value ty symbol span)
  | place, .identifier name _ symbol span => by
    rw [code]
    exact isPlain_single (plainResult_useOfName name symbol span)
  | place, .localVar name _ symbol span => by
    rw [code]
    exact isPlain_single (plainResult_onLocal rfl name symbol span)
  | place, .element name index _ symbol span => by
    rw [code]
    exact isPlain_bind fun push hpush => (isPlain_code .value index).append
      (isPlain_ok_singleton (plainResult_onLocal rfl name symbol span push hpush))
  | place, .gameVar name secondary _ symbol span => by
    rw [code]
    exact isPlain_single (plainResult_onGame (by cases secondary <;> rfl) name symbol span)
  | place, .constant _ _ value _ => by
    rw [code]
    exact isPlain_code .value value
  | place, .openConstant name _ span => by
    rw [code]
    exact isPlain_error _
  | place, .condition _ _ _ span => by
    rw [code]
    exact isPlain_error _
  | .value, .arithmetic left op right ty span => by
    rw [code]
    exact isPlain_error _
  | .operand, .arithmetic left op right ty span => by
    rw [code]
    exact (isPlain_code .operand left).append ((isPlain_code .operand right).append
      (isPlain_single (plainResult_arithmeticCode op ty span)))
  | place, .calculation inner _ _ => by
    rw [code]
    exact isPlain_code .operand inner
  | place, .paren inner _ => by
    rw [code]
    exact isPlain_code place inner
  | place, .call head args => by
    rw [code]
    exact isPlain_bind fun trailer htrailer => (isPlain_codes args).append
      (IsPlain.append (htrailer ▸ isPlain_trailer head args (trailers.fixed? head))
        (isPlain_single (plainResult_invocation head)))
  | place, .joined parts span => by
    rw [code]
    exact (isPlain_codes parts).append (isPlain_ok_singleton rfl)

/-- The code of value expressions is plain. -/
theorem Expr.isPlain_codes : ∀ es : List Expr, IsPlain (Expr.codes trailers es)
  | [] => by
    rw [codes]
    exact isPlain_nil
  | first :: rest => by
    rw [codes]
    exact (isPlain_code .value first).append (isPlain_codes rest)

end

/-- The code of an assignment is plain. -/
private theorem isPlain_assignmentCode (targets values : List Expr) :
    IsPlain (assignmentCode trailers targets values) := by
  cases targets with
  | nil => exact isPlain_nil
  | cons first rest =>
    unfold assignmentCode
    simp only
    split
    · exact isPlain_error _
    · have hstores : IsPlain (ofList ((first :: rest).reverse.map Expr.store)) :=
        isPlain_ofList fun outcome houtcome => by
          obtain ⟨target, -, rfl⟩ := List.mem_map.mp houtcome
          exact plainResult_store target
      refine IsPlain.append ?_ ((Expr.isPlain_codes trailers values).append hstores)
      split
      · exact Expr.isPlain_code trailers .value _
      · exact isPlain_nil

/-- The code of a statement without control flow is plain. -/
theorem Stmt.isPlain_straight? {s : Stmt} {outcome : StraightCode}
    (h : s.straight? trailers = some outcome) : IsPlain outcome := by
  cases s with
  | leave values span =>
    cases h
    exact (Expr.isPlain_codes trailers values).append (isPlain_ok_singleton rfl)
  | assign targets values span =>
    cases h
    exact isPlain_assignmentCode trailers targets values
  | declare name ty symbol initial span =>
    cases h
    refine isPlain_bind fun declared _ => IsPlain.append ?_ (isPlain_ok_singleton rfl)
    cases initial with
    | some value => exact Expr.isPlain_code trailers .value value
    | none => exact isPlain_single (plainResult_defaultPush ty span)
  | declareArray name ty symbol size span =>
    cases h
    refine isPlain_bind fun declared _ => ?_
    split
    · exact (Expr.isPlain_code trailers .value size).append (isPlain_ok_singleton rfl)
    · exact isPlain_error _
  | evaluate value span =>
    cases h
    refine (Expr.isPlain_code trailers .value value).append (isPlain_ofList fun outcome hmem => ?_)
    obtain ⟨ty, -, rfl⟩ := List.mem_map.mp hmem
    exact plainResult_discard ty span
  | empty span =>
    cases h
    exact isPlain_nil
  | block | ifThen | ifElse | whileLoop | switch => cases h

/-- The return after a script body is plain. -/
theorem isPlain_defaultLeaveCode (returns : List Ty) (span : Span) :
    IsPlain (defaultLeaveCode returns span) := by
  refine IsPlain.append (isPlain_ofList fun outcome hmem => ?_) (isPlain_ok_singleton rfl)
  obtain ⟨ty, -, rfl⟩ := List.mem_map.mp hmem
  exact plainResult_defaultPush ty span

end ScriptBackend

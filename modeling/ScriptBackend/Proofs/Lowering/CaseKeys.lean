import ScriptBackend.Proofs.Lowering.Straight

/-!
# Keys and subjects of switches

A literal, the name of a configuration entry or constant, and a named constant for one of these can
stand both as the subject of a switch and as a key of its cases. As a subject it is pushed; as a key
it is folded to a constant. The two agree, so that a switch on such an expression selects a case
that has the expression among its keys, except for null of the type of longs: it is pushed as a long
and folded to an integer, and a switch on it does not select the case that it is a key of.
-/

namespace ScriptBackend

/-- The constant that an instruction pushes. -/
def Instruction.pushed? (instruction : Instruction) : Option Constant :=
  match instruction.opcode, instruction.operand with
  | .pushConstantInt, .int value => some (.int value)
  | .pushConstantLong, .long value => some (.long value)
  | .pushConstantString, .string value => some (.string value)
  | .pushConstantSymbol, .symbol symbol => some (.symbol symbol)
  | _, _ => none

namespace Expr

/-- What a named constant stands for, through all names; every other expression stands for
itself. -/
def core : Expr → Expr
  | .constant _ _ value _ => value.core
  | other => other

/-- Whether an expression is a literal or the name of a configuration entry or constant, or stands
for one. -/
def isFixed (e : Expr) : Bool :=
  match e.core with
  | .literal .. => true
  | .identifier _ _ (some (.config _)) _ | .identifier _ _ (some (.constant _)) _ => true
  | _ => false

/-- Whether an expression is null of the type of longs, or stands for it. -/
def isLongNull (e : Expr) : Bool :=
  match e.core with
  | .literal .null ty _ _ => ty.stackType? = some .long
  | _ => false

/-- A named constant folds to what it stands for. -/
theorem caseKey_core (scope : Scope) : ∀ e : Expr, e.core.caseKey scope = e.caseKey scope
  | .constant _ _ value _ => by
    rw [core, caseKey]
    exact caseKey_core scope value
  | .literal .. | .identifier .. | .localVar .. | .element .. | .gameVar .. | .openConstant ..
  | .condition .. | .arithmetic .. | .calculation .. | .paren .. | .call .. | .joined .. => rfl

/-- A named constant is lowered as what it stands for. -/
theorem lower_core (context : Context) :
    ∀ e : Expr, Lower.expr context .value e.core = Lower.expr context .value e
  | .constant _ _ value _ => by
    rw [core, Lower.expr]
    exact lower_core context value
  | .literal .. | .identifier .. | .localVar .. | .element .. | .gameVar .. | .openConstant ..
  | .condition .. | .arithmetic .. | .calculation .. | .paren .. | .call .. | .joined .. => rfl

end Expr

/-- What is pushed for a literal is what it folds to, apart from null of the type of longs. -/
theorem Literal.pushed?_of_push {value : Literal} {ty : Ty} {symbol : Option Symbol} {span : Span}
    {instruction : Instruction} (h : value.push ty symbol span = .ok instruction) :
    if value = .null ∧ ty.stackType? = some .long then instruction.pushed? = some (.long (-1))
    else instruction.pushed? = some (value.constant symbol) := by
  unfold Literal.push at h
  cases value with
  | int value | bool value | char value | coord value | long value =>
    cases h
    rfl
  | string value =>
    cases symbol with
    | none =>
      cases h
      rfl
    | some symbol =>
      cases h
      rfl
  | null =>
    simp only at h
    cases hstack : ty.stackType? with
    | none =>
      rw [hstack] at h
      cases h
    | some stack =>
      rw [hstack] at h
      cases stack with
      | integer =>
        cases h
        rfl
      | long =>
        cases h
        rfl
      | string => cases h

/-- A table selects the first case that has a key. -/
theorem SwitchTable.find?_of_first {table : SwitchTable} {earlier later : List TableCase}
    {case : TableCase} {key : Constant} (hcases : table.cases = earlier ++ case :: later)
    (hearlier : ∀ other ∈ earlier, ∀ candidate ∈ other.keys, candidate.same key = false)
    (hkey : key ∈ case.keys) : table.find? key = some case := by
  have hnone : earlier.find? (fun other => other.keys.any fun candidate => candidate.same key) =
      none := by
    simpa using hearlier
  have hany : (case.keys.any fun candidate => candidate.same key) = true :=
    List.any_eq_true.mpr ⟨key, hkey, Constant.same_self key⟩
  rw [SwitchTable.find?, hcases, List.find?_append, hnone, Option.none_or, List.find?_cons, hany]

namespace Lower

variable {context : Context}

/-- A fixed expression is lowered to a single push, of the constant that it folds to, apart from
null of the type of longs. -/
theorem exists_push_of_isFixed {e : Expr} (hfixed : e.isFixed = true) {key : Constant}
    (hkey : e.caseKey context.scope = .ok key) :
    ∃ outcome, expr context .value e = emitResult outcome ∧ ∀ instruction,
      outcome = .ok instruction → if e.isLongNull then
        key = .int (-1) ∧ instruction.pushed? = some (.long (-1))
      else instruction.pushed? = some key := by
  rw [← e.caseKey_core] at hkey
  rw [← e.lower_core, Expr.isLongNull]
  rw [Expr.isFixed] at hfixed
  cases hcore : e.core with
  | literal value ty symbol span =>
    rw [hcore, Expr.caseKey] at hkey
    cases hkey
    refine ⟨value.push ty symbol span, by rw [expr], fun instruction hpush => ?_⟩
    have hpushed := Literal.pushed?_of_push hpush
    cases value with
    | null =>
      by_cases hlong : ty.stackType? = some .long
      · rw [if_pos ⟨rfl, hlong⟩] at hpushed
        simp [hlong, hpushed, Literal.constant]
      · rw [if_neg (fun hboth => hlong hboth.2)] at hpushed
        simp [hlong, hpushed]
    | _ => simpa using hpushed
  | identifier name ty symbol span =>
    rw [hcore] at hkey hfixed
    refine ⟨useOfName name symbol span, by rw [expr], fun instruction huse => ?_⟩
    match symbol, hfixed with
    | some (.config symbol), _ =>
      cases hkey
      cases huse
      rfl
    | some (.constant symbol), _ =>
      cases hkey
      cases huse
      rfl
  | _ =>
    rw [hcore] at hfixed
    cases hfixed

/-- What is emitted for a fixed expression is a single push. Apart from null of the type of longs
the expression folds to the constant that is pushed, so a switch on it selects the first case that
has the expression among its keys. -/
theorem expr_pushes_caseKey {e : Expr} (hfixed : e.isFixed = true) {key : Constant}
    (hkey : e.caseKey context.scope = .ok key) {start final : LowerState}
    (hrun : expr context .value e start = .ok () final) :
    ∃ instruction pushed, start.Emitted final [instruction] ∧ instruction.pushed? = some pushed ∧
      (e.isLongNull = false → pushed = key ∧
        ∀ (table : SwitchTable) (earlier later : List TableCase) (case : TableCase),
          table.cases = earlier ++ case :: later →
          (∀ other ∈ earlier, ∀ candidate ∈ other.keys, candidate.same key = false) →
          key ∈ case.keys → table.find? pushed = some case) ∧
      (e.isLongNull = true → key = .int (-1) ∧ pushed = .long (-1) ∧ key.same pushed = false) := by
  obtain ⟨outcome, hexpr, hpush⟩ := exists_push_of_isFixed hfixed hkey
  rw [hexpr] at hrun
  obtain ⟨code, hcode, hemitted⟩ := (emits_emitResult outcome).emitted hrun
  obtain ⟨instruction, houtcome, rfl⟩ := StraightCode.single_eq_ok_iff.mp hcode
  have hpushed := hpush instruction houtcome
  cases hnull : e.isLongNull with
  | true =>
    rw [hnull, if_pos rfl] at hpushed
    obtain ⟨rfl, hlong⟩ := hpushed
    exact ⟨instruction, .long (-1), hemitted, hlong, nofun, fun _ => ⟨rfl, rfl, rfl⟩⟩
  | false =>
    rw [hnull, if_neg Bool.false_ne_true] at hpushed
    refine ⟨instruction, key, hemitted, hpushed, fun _ => ⟨rfl, ?_⟩, nofun⟩
    exact fun table earlier later case => SwitchTable.find?_of_first

/-- A named constant for a named constant for a string that names an entry. -/
private def namedEntry : Expr :=
  .constant "best" (.scalar .obj) (.constant "first" (.scalar .obj)
    (.literal (.string "sword") (.scalar .obj) (some (.config ⟨"sword", .scalar .obj⟩)) .unknown)
    .unknown) .unknown

theorem expr_pushes_caseKey_namedEntry :
    ∃ final instruction, expr ⟨⟨.proc, "pick", [], []⟩, {}, {}⟩ .value namedEntry
        ⟨(Emitter.new false).start, {}, []⟩ = .ok () final ∧
      LowerState.Emitted ⟨(Emitter.new false).start, {}, []⟩ final [instruction] ∧
      instruction.pushed? = some (.symbol (.config ⟨"sword", .scalar .obj⟩)) ∧
      SwitchTable.find? ⟨0, [⟨[.int 1], ⟨"one"⟩⟩,
          ⟨[.symbol (.config ⟨"sword", .scalar .obj⟩)], ⟨"sword"⟩⟩]⟩
          (.symbol (.config ⟨"sword", .scalar .obj⟩)) =
        some ⟨[.symbol (.config ⟨"sword", .scalar .obj⟩)], ⟨"sword"⟩⟩ := by
  obtain ⟨final, hfinal⟩ : ∃ final, expr ⟨⟨.proc, "pick", [], []⟩, {}, {}⟩ .value namedEntry
      ⟨(Emitter.new false).start, {}, []⟩ = .ok () final := ⟨_, rfl⟩
  obtain ⟨instruction, pushed, hemitted, hpushed, hfolded, -⟩ :=
    expr_pushes_caseKey (show namedEntry.isFixed = true by decide)
      (show namedEntry.caseKey {} = .ok (.symbol (.config ⟨"sword", .scalar .obj⟩)) from rfl) hfinal
  obtain ⟨rfl, hfind⟩ := hfolded (by decide)
  refine ⟨final, instruction, hfinal, hemitted, hpushed, ?_⟩
  exact hfind _ [⟨[.int 1], ⟨"one"⟩⟩] [] _ rfl (by decide) (by decide)

/-- Null of the type of longs. -/
private def nullLong : Expr := .literal .null .long none .unknown

theorem not_always_pushes_caseKey_nullLong :
    ¬∀ (context : Context) (e : Expr) (key : Constant) (start final : LowerState),
      e.isFixed = true → e.caseKey context.scope = .ok key →
      expr context .value e start = .ok () final →
      ∃ instruction, start.Emitted final [instruction] ∧ instruction.pushed? = some key := by
  intro h
  obtain ⟨final, hfinal⟩ : ∃ final, expr ⟨⟨.proc, "pick", [], []⟩, {}, {}⟩ .value nullLong
      ⟨(Emitter.new false).start, {}, []⟩ = .ok () final := ⟨_, rfl⟩
  obtain ⟨instruction, hemitted, hpushed⟩ :=
    h ⟨⟨.proc, "pick", [], []⟩, {}, {}⟩ nullLong (.int (-1)) _ final rfl rfl hfinal
  have hblocks := hemitted.appends [] ⟨.entry, []⟩ rfl
  cases hfinal
  cases hblocks
  cases hpushed

end Lower

end ScriptBackend

import ScriptBackend.Proofs.Lowering.Emission
import ScriptBackend.Proofs.Lowering.References
import ScriptBackend.Proofs.Stacks.Scan
import ScriptBackend.Proofs.Stacks.Values

/-!
# Code of statements on the stacks

The code of every well-typed statement leads from empty stacks to empty stacks. A statement without
control flow pushes values and takes them off again, or leaves the script with them. The parts of a
statement with control flow meet at labels, where all stacks are empty.
-/

namespace ScriptBackend

variable {subjects : Nat → Option StackType} {returns : List Ty}

section Control

variable {instruction : Instruction} {pops : List StackType}

/-- An instruction that may leave for a label is safe where exactly its operands are on the
stacks. -/
theorem safeAt_push (heffect : instruction.effect? subjects = some ⟨pops, []⟩)
    (hleave : instruction.opcode ≠ .leave) (hjump : instruction.opcode ≠ .jump) :
    instruction.SafeAt subjects returns (Heights.empty.push pops) := by
  refine ⟨⟨_, heffect, Heights.empty.holds_push pops, fun _ => ?_⟩, ?_, ?_⟩
  · rw [StackEffect.apply_push, Heights.push_nil]
  · exact fun heq => absurd heq hleave
  · exact fun heq => absurd heq hjump

/-- A jump is safe where exactly its arguments are on the stacks. -/
theorem safeAt_jump {symbol : ScriptSymbol} (span : Span) :
    ((Instruction.onSymbol .jump (.script symbol)).atSpan span).SafeAt subjects returns
      (Heights.empty.push (stackTypesOf symbol.parameters)) := by
  refine ⟨⟨_, rfl, Heights.empty.holds_push _, ?_⟩, ?_, ?_⟩
  · rintro (hbranch | hswitch)
    · cases hbranch
    · cases hswitch
  · intro hleave
    cases hleave
  · exact fun _ => ⟨symbol, rfl, rfl⟩

/-- A script is left safely where exactly its returns are on the stacks. -/
theorem safeAt_leave (span : Span) :
    ({ opcode := .leave : Instruction }.atSpan span).SafeAt subjects returns
      (Heights.empty.push (stackTypesOf returns)) := by
  refine ⟨⟨_, rfl, Heights.holds_nil _, ?_⟩, fun _ => rfl, ?_⟩
  · rintro (hbranch | hswitch)
    · cases hbranch
    · cases hswitch
  · intro hjump
    cases hjump

/-- The branch of a comparison takes two values off the stack of its operands. -/
theorem effect?_of_comparisonBranch {comparison : Comparison} {ty : Ty} {label : Label}
    {span : Span} {stack : StackType}
    (h : comparisonBranch comparison ty label span = .ok instruction)
    (hty : ty.stackType? = some stack) :
    instruction.effect? subjects = some ⟨[stack, stack], []⟩ ∧
      instruction.opcode.goesOn = false ∧ instruction.opcode ≠ .leave ∧
      instruction.opcode ≠ .jump := by
  unfold comparisonBranch at h
  rw [hty, Option.bind_some] at h
  cases comparison <;> cases stack <;> cases h <;> exact ⟨rfl, rfl, nofun, nofun⟩

end Control

/-- A mark of a line does nothing. -/
theorem settles_mark {span : Span} {mark : List Instruction} (h : IsMark span mark) :
    Settles subjects returns (mark.map .code) := by
  rcases h with rfl | rfl
  · exact .nil
  · exact .of_runs (.cons rfl rfl (Heights.holds_nil _) .nil)

/-- An unconditional branch leaves with empty stacks. -/
theorem settles_branchAlways (label : Label) (span : Span) :
    Settles subjects returns [.code (branchAlways label span)] :=
  .of_runs_control .nil (@safeAt_push subjects returns _ [] rfl nofun nofun) rfl

/-- A jump is its arguments and the instruction that leaves, and produces nothing. -/
theorem Expr.Jumps.exists_code {e : Expr} (h : e.Jumps) {place : Place} {code : List Instruction}
    (hcode : e.code [] place = .ok code) : e.producedTypes = [] ∧ ∃ before symbol span,
      code = before ++ [(Instruction.onSymbol .jump (.script symbol)).atSpan span] ∧
      Runs subjects .empty before (Heights.empty.push (stackTypesOf symbol.parameters)) := by
  induction h with
  | @call head args symbol hkind hsymbol hargs =>
    obtain ⟨before, instruction, hbefore, hinvocation, rfl⟩ := exists_of_call_code hcode
    refine ⟨by rw [Expr.producedTypes, hkind], before, symbol, head.span, ?_, hargs.runs hbefore _⟩
    unfold CallHead.invocation at hinvocation
    rw [hkind, hsymbol] at hinvocation
    simp only at hinvocation
    split at hinvocation
    · cases hinvocation
      rfl
    · cases hinvocation
  | @identifier name symbol span htrigger hparameters =>
    rw [Expr.code] at hcode
    obtain ⟨instruction, huse, rfl⟩ := StraightCode.single_eq_ok_iff.mp hcode
    cases huse
    refine ⟨rfl, [], symbol, span, ?_, ?_⟩
    · have hopcode : (Symbol.script symbol).useOpcode = .jump := if_pos htrigger
      rw [hopcode]
      rfl
    · rw [hparameters]
      exact .nil
  | paren _ ih =>
    rw [Expr.code] at hcode
    rw [Expr.producedTypes]
    exact ih hcode

/-- The stores into targets that are no elements take all values. -/
theorem runs_stores {targets : List Expr} {kinds : List StackType}
    (htargets : List.Forall₂ Expr.Takes targets kinds)
    (helement : ∀ target ∈ targets, target.isElement = false) {code : List Instruction}
    (hcode : StraightCode.ofList (targets.reverse.map Expr.store) = .ok code) (heights : Heights) :
    Runs subjects (heights.push kinds) code heights :=
  runs_pops htargets (fun target hmem _ _ htake hstore =>
    htake.does_of_store (helement target hmem) hstore) hcode heights

/-- The stores into an element and other targets after it take the values and the index below
them. -/
theorem runs_stores_element {name : String} {index : Expr} {ty : Ty} {symbol : LocalSymbol}
    {span : Span} {rest : List Expr} {kinds : List StackType}
    (hrest : List.Forall₂ Expr.Takes rest kinds)
    (helement : ∀ target ∈ rest, target.isElement = false) {code : List Instruction}
    (hcode : StraightCode.ofList (((Expr.element name index ty (some (.localVar symbol)) span ::
      rest).reverse).map Expr.store) = .ok code) :
    Runs subjects ((Heights.empty.push [.integer]).push (.integer :: kinds)) code .empty := by
  rw [List.reverse_cons, List.map_append] at hcode
  obtain ⟨before, after, hbefore, hafter, rfl⟩ := StraightCode.ofList_append_eq_ok_iff.mp hcode
  cases hafter
  have hstores := @runs_stores subjects _ _ hrest helement _ hbefore
    (Heights.empty.push [.integer, .integer])
  have hheights : (Heights.empty.push [.integer]).push (.integer :: kinds) =
      (Heights.empty.push [.integer, .integer]).push kinds := by
    rw [← Heights.push_append, ← Heights.push_append]
    rfl
  rw [hheights]
  have hpop : ((Instruction.onSymbol .popArrayInt (.localVar symbol)).atSpan span).Does subjects
      [.integer, .integer] [] := ⟨rfl, rfl⟩
  exact hstores.append (hpop.runs .empty)

/-- The code of an assignment takes all values that it pushes. -/
theorem runs_assignment {targets values : List Expr} {kinds : List StackType}
    (htargets : List.Forall₂ Expr.Takes targets kinds) (hvalues : Expr.YieldAll values kinds)
    {code : List Instruction} (hcode : assignmentCode [] targets values = .ok code) :
    Runs subjects .empty code .empty := by
  unfold assignmentCode at hcode
  cases htargets with
  | nil =>
    cases hcode
    exact .nil
  | @cons first stack rest kinds hfirst hrest =>
    simp only at hcode
    split at hcode
    · cases hcode
    · next hfind =>
      have helement : ∀ target ∈ rest, target.isElement = false := by
        intro target hmem
        exact Bool.eq_false_iff.mpr (List.find?_eq_none.mp hfind target hmem)
      obtain ⟨before, tail, hbefore, htail, rfl⟩ := StraightCode.append_eq_ok_iff.mp hcode
      obtain ⟨between, after, hbetween, hafter, rfl⟩ := StraightCode.append_eq_ok_iff.mp htail
      cases hfirst with
      | element _ hindex =>
        exact (hindex.runs hbefore .empty).append ((hvalues.runs hbetween _).append
          (runs_stores_element hrest helement hafter))
      | localVar hsymbol =>
        cases hbefore
        exact (hvalues.runs hbetween _).append (runs_stores (.cons (.localVar hsymbol) hrest)
          (List.forall_mem_cons.mpr ⟨rfl, helement⟩) hafter .empty)
      | gameVar hsymbol =>
        cases hbefore
        exact (hvalues.runs hbetween _).append (runs_stores (.cons (.gameVar hsymbol) hrest)
          (List.forall_mem_cons.mpr ⟨rfl, helement⟩) hafter .empty)

/-- A well-typed statement without control flow leads from empty stacks to empty stacks. -/
theorem Stmt.IsTyped.settles_straight {s : Stmt} (h : s.IsTyped returns) {code : List Instruction}
    (hcode : s.straight? [] = some (.ok code)) : Settles subjects returns (code.map .code) := by
  cases h with
  | block | ifThen | ifElse | whileLoop | switch => cases hcode
  | leave hvalues =>
    obtain ⟨before, after, hbefore, hafter, rfl⟩ :=
      StraightCode.append_eq_ok_iff.mp (Option.some.inj hcode)
    cases hafter
    exact .of_runs_control (hvalues.runs hbefore .empty) (safeAt_leave _) rfl
  | assign htargets hvalues =>
    exact .of_runs (runs_assignment htargets hvalues (Option.some.inj hcode))
  | @declare name ty symbol initial span stack hsymbol hty hinitial =>
    obtain ⟨before, after, hbefore, hafter, rfl⟩ :=
      StraightCode.append_eq_ok_iff.mp (Option.some.inj hcode)
    cases hafter
    have hvalue : Runs subjects .empty before (Heights.empty.push [stack]) := by
      cases initial with
      | some value => exact (hinitial value rfl).runs hbefore .empty
      | none =>
        obtain ⟨instruction, hpush, rfl⟩ := StraightCode.single_eq_ok_iff.mp hbefore
        obtain ⟨found, hfound, hdoes⟩ := Ty.does_of_defaultPush hpush
        rw [hty] at hfound
        cases hfound
        exact hdoes.runs .empty
    exact .of_runs (hvalue.append ((does_popLocal span hsymbol).runs .empty))
  | @declareArray name ty symbol size span hsize =>
    have hcode := Option.some.inj hcode
    change (if ty.isArray = true then _ else _) = _ at hcode
    split at hcode
    · obtain ⟨before, after, hbefore, hafter, rfl⟩ := StraightCode.append_eq_ok_iff.mp hcode
      cases hafter
      have hdefine : ((Instruction.onSymbol .defineArray (.localVar symbol)).atSpan span).Does
          subjects [.integer] [] := ⟨rfl, rfl⟩
      exact .of_runs ((hsize.runs hbefore .empty).append (hdefine.runs .empty))
    · cases hcode
  | evaluate hvalue =>
    obtain ⟨before, after, hbefore, hafter, rfl⟩ :=
      StraightCode.append_eq_ok_iff.mp (Option.some.inj hcode)
    have hruns := @Expr.Yields.runs subjects _ _ hvalue _ _ hbefore .empty
    rw [hvalue.eq_producedTypes] at hruns
    exact .of_runs (hruns.append (runs_discards hafter .empty))
  | jump hvalue =>
    obtain ⟨before, after, hbefore, hafter, rfl⟩ :=
      StraightCode.append_eq_ok_iff.mp (Option.some.inj hcode)
    obtain ⟨hproduced, args, symbol, span, rfl, hruns⟩ := hvalue.exists_code hbefore
    rw [hproduced] at hafter
    cases hafter
    rw [List.append_nil]
    exact .of_runs_control hruns (safeAt_jump span) rfl
  | empty =>
    cases hcode
    exact .nil

/-- A well-typed condition leaves with empty stacks. -/
theorem TestCode.settles : ∀ {e : Expr} {onTrue onFalse : Label} {items : List Item},
    TestCode [] e onTrue onFalse items → e.IsTest → Settles subjects returns items
  | _, _, _, _, @TestCode.both _ _ _ _ _ _ next _ _ hleft hright, htest => by
    cases htest with
    | join htestLeft htestRight =>
      exact (hleft.settles htestLeft).append
        ((Settles.bind next).append (hright.settles htestRight))
  | _, _, _, _, @TestCode.either _ _ _ _ _ _ next _ _ hleft hright, htest => by
    cases htest with
    | join htestLeft htestRight =>
      exact (hleft.settles htestLeft).append
        ((Settles.bind next).append (hright.settles htestRight))
  | _, _, _, _, @TestCode.compare _ _ _ _ span _ onFalse first second branch hleft hright hbranch,
      htest => by
    cases htest with
    | @compare _ _ _ _ stack hty hyieldsLeft hyieldsRight =>
      have hruns := (@Expr.Yields.runs subjects _ _ hyieldsLeft _ _ hleft .empty).append
        (hyieldsRight.runs hright _)
      rw [← Heights.push_append] at hruns
      obtain ⟨heffect, hcontrol, hleave, hjump⟩ :=
        @effect?_of_comparisonBranch subjects _ _ _ _ _ _ hbranch hty
      have hcompared : Settles subjects returns ((first ++ second ++ [branch]).map .code) :=
        .of_runs_control hruns (safeAt_push heffect hleave hjump) hcontrol
      have hsettled := hcompared.append (settles_branchAlways onFalse span)
      simpa using hsettled
  | _, _, _, _, .paren hinner, htest => by
    cases htest with
    | paren htestInner => exact hinner.settles htestInner

/-- The stack of the single value that an expression leaves. -/
def Expr.stack? (e : Expr) : Option StackType := (stackTypesOf e.producedTypes).head?

/-- The stack of a single value is that which the types of the expression tell. -/
theorem Expr.Yields.stack?_eq {e : Expr} {stack : StackType} (h : e.Yields [stack]) :
    e.stack? = some stack := by
  rw [Expr.stack?, ← h.eq_producedTypes]
  rfl

/-- Whether the stacks of the subjects of switches are told by the numbers from a base on. -/
def TellsSubjects (subjects : Nat → Option StackType) (base : Nat)
    (switches : List (Expr × List Case)) : Prop :=
  ∀ number subject cases, switches[number]? = some (subject, cases) →
    subjects (base + number) = subject.stack?

section TellsSubjects

variable {base : Nat} {first second : List (Expr × List Case)}

theorem TellsSubjects.left (h : TellsSubjects subjects base (first ++ second)) :
    TellsSubjects subjects base first := by
  intro number subject cases hfound
  have hlt := (List.getElem?_eq_some_iff.mp hfound).1
  exact h number subject cases (by rwa [List.getElem?_append_left hlt])

theorem TellsSubjects.right (h : TellsSubjects subjects base (first ++ second)) {count : Nat}
    (hcount : count = first.length) : TellsSubjects subjects (base + count) second := by
  intro number subject cases hfound
  rw [Nat.add_assoc]
  refine h (count + number) subject cases ?_
  rw [List.getElem?_append_right (by omega), hcount, Nat.add_sub_cancel_left]
  exact hfound

theorem TellsSubjects.head {subject : Expr} {cases : List Case}
    (h : TellsSubjects subjects base ((subject, cases) :: second)) :
    subjects base = subject.stack? := h 0 subject cases rfl

theorem TellsSubjects.tail {entry : Expr × List Case}
    (h : TellsSubjects subjects base (entry :: second)) :
    TellsSubjects subjects (base + 1) second :=
  (show TellsSubjects subjects base ([entry] ++ second) from h).right rfl

end TellsSubjects

/-- The branch that follows a `switch` leaves with empty stacks. -/
theorem settles_skipCode (cases : List Case) (done : Label) (fallback : Option Label)
    (span : Span) :
    Settles subjects returns ((skipCode cases done fallback span).map .code) := by
  unfold skipCode
  split
  · exact .nil
  · exact settles_branchAlways _ span

/-- The subject of a `switch` is pushed and taken off again. -/
theorem settles_switchOn {subject : Expr} {stack : StackType} (hsubject : subject.Yields [stack])
    {code : List Instruction} (hcode : subject.code [] .value = .ok code) {base : Nat}
    (htells : subjects base = subject.stack?) (span : Span) :
    Settles subjects returns ((code ++ [switchOn base span]).map .code) := by
  have heffect : (switchOn base span).effect? subjects = some ⟨[stack], []⟩ := by
    change (subjects base).map _ = _
    rw [htells, hsubject.stack?_eq]
    rfl
  exact .of_runs_control (hsubject.runs hcode .empty) (safeAt_push heffect nofun nofun) rfl

variable {scope : Scope}

mutual

/-- The code of a well-typed statement leads from empty stacks to empty stacks. -/
theorem StmtCode.settles : ∀ {s : Stmt} {base : Nat} {items : List Item}
    {tables : List SwitchTable}, StmtCode [] scope s base items tables → s.IsTyped returns →
    TellsSubjects subjects base s.switches → Settles subjects returns items
  | _, _, _, _, .straight hmark hcode, htyped, _ => by
    rw [List.map_append]
    exact (settles_mark hmark).append (htyped.settles_straight hcode)
  | _, _, _, _, .block hbody, htyped, htells => by
    cases htyped with
    | block htypedBody =>
      rw [Stmt.switches] at htells
      exact hbody.settles htypedBody htells
  | _, _, _, _, @StmtCode.ifThen _ _ _ _ span _ _ whenTrue done _ _ _ hmark htest harm, htyped,
      htells => by
    cases htyped with
    | ifThen htypedTest htypedTrue =>
      rw [Stmt.switches] at htells
      exact (settles_mark hmark).append ((htest.settles htypedTest).append
        ((Settles.bind whenTrue).append ((harm.settles htypedTrue htells).append
          ((settles_branchAlways done span).append (Settles.bind done)))))
  | _, _, _, _, @StmtCode.ifElse _ _ _ _ _ span _ _ whenTrue whenFalse done _ _ _ _ _ hmark htest
      hfirst hsecond, htyped, htells => by
    cases htyped with
    | ifElse htypedTest htypedTrue htypedFalse =>
      rw [Stmt.switches] at htells
      have hcount := hfirst.refers.fits.length_eq
      exact (settles_mark hmark).append ((htest.settles htypedTest).append
        ((Settles.bind whenTrue).append ((hfirst.settles htypedTrue htells.left).append
          ((settles_branchAlways done span).append ((Settles.bind whenFalse).append
            ((hsecond.settles htypedFalse (htells.right hcount)).append
              ((settles_branchAlways done span).append (Settles.bind done))))))))
  | _, _, _, _, @StmtCode.whileLoop _ _ _ _ span _ _ start inside done _ _ _ hmark htest hbody,
      htyped, htells => by
    cases htyped with
    | whileLoop htypedTest htypedBody =>
      rw [Stmt.switches] at htells
      exact (settles_mark hmark).append ((Settles.bind start).append
        ((htest.settles htypedTest).append ((Settles.bind inside).append
          ((hbody.settles htypedBody htells).append
            ((settles_branchAlways start span).append (Settles.bind done))))))
  | _, _, _, _, @StmtCode.switch _ _ _ subject cases span base _ _ done fallback entries caseItems _
      hmark hsubject hfallback hcases, htyped, htells => by
    cases htyped with
    | switch htypedSubject htypedCases =>
      rw [Stmt.switches] at htells
      have hparts := (settles_mark hmark).append
        ((settles_switchOn htypedSubject hsubject htells.head span).append
          ((settles_skipCode cases done fallback span).append
            ((hcases.settles htypedCases htells.tail).append (Settles.bind done))))
      simpa using hparts

/-- The code of well-typed statements leads from empty stacks to empty stacks. -/
theorem StmtsCode.settles : ∀ {body : List Stmt} {base : Nat} {items : List Item}
    {tables : List SwitchTable}, StmtsCode [] scope body base items tables →
    (∀ s ∈ body, s.IsTyped returns) → TellsSubjects subjects base (Stmt.switchesOf body) →
    Settles subjects returns items
  | _, _, _, _, .nil, _, _ => .nil
  | _, _, _, _, .cons hfirst hrest, htyped, htells => by
    rw [Stmt.switchesOf] at htells
    rw [List.forall_mem_cons] at htyped
    exact (hfirst.settles htyped.1 htells.left).append
      (hrest.settles htyped.2 (htells.right hfirst.refers.fits.length_eq))

/-- The code of well-typed cases leads from empty stacks to empty stacks. -/
theorem CasesCode.settles : ∀ {cases : List Case} {base : Nat} {done : Label}
    {fallback : Option Label} {entries : List TableCase} {items : List Item}
    {tables : List SwitchTable},
    CasesCode [] scope cases base done fallback entries items tables →
    (∀ c ∈ cases, ∀ s ∈ c.body, s.IsTyped returns) →
    TellsSubjects subjects base (Case.switchesOf cases) → Settles subjects returns items
  | _, _, _, _, _, _, _, .nil, _, _ => .nil
  | _, _, _, _, _, _, _, @CasesCode.cons _ _ _ _ _ span _ _ done label _ _ _ _ _ _ _ hlabel hkeys
      hbody hrest, htyped, htells => by
    rw [Case.switchesOf] at htells
    rw [List.forall_mem_cons] at htyped
    exact (Settles.bind label).append ((hbody.settles htyped.1 htells.left).append
      ((settles_branchAlways done span).append
        (hrest.settles htyped.2 (htells.right hbody.refers.fits.length_eq))))

end

end ScriptBackend

import ScriptBackend.Proofs.Lowering.WellFormed
import ScriptBackend.Proofs.Semantics.Follows

/-!
# Flat runs follow the tree

The flat run of an emitted script follows the structured run of its tree. Each condition and each
statement is followed along the shape of its code, and each case of a switch from the label of its
entry to the end of the switch. So a flat run and the run by the tree have the same history, however
long it gets.
-/

namespace ScriptBackend

open CompiledScript

variable {script : CompiledScript} {oracle : Oracle} {trailers : Trailers} {scope : Scope}

/-- A condition leaves for the label of its outcome. -/
theorem TestCode.follows (hnodup : (boundLabels script.items).Nodup) {e : Expr}
    {onTrue onFalse : Label} {items : List Item} (h : TestCode trailers e onTrue onFalse items)
    {position whenTrue whenFalse : Nat} (hplace : script.HasAt items position)
    (htrue : script.offset? onTrue = some whenTrue)
    (hfalse : script.offset? onFalse = some whenFalse) :
    script.Follows oracle position (e.test trailers oracle) fun holds =>
      if holds then whenTrue else whenFalse := by
  induction h generalizing position whenTrue whenFalse with
  | both hleft hright ihleft ihright =>
    rw [Expr.test]
    refine (ihleft hplace.left (hplace.right.offset? hnodup) hfalse).bind fun holds => ?_
    cases holds with
    | true => exact ihright hplace.right.tail_bind htrue hfalse
    | false => exact .pure (.refl _)
  | either hleft hright ihleft ihright =>
    rw [Expr.test]
    refine (ihleft hplace.left htrue (hplace.right.offset? hnodup)).bind fun holds => ?_
    cases holds with
    | true => exact .pure (.refl _)
    | false => exact ihright hplace.right.tail_bind htrue hfalse
  | @compare left right comparison span onTrue onFalse first second branch hleft hright hbranch =>
    obtain ⟨opcode, hopcode, hconditional, rfl⟩ := exists_opcode_of_comparisonBranch hbranch
    rw [Expr.test, hopcode]
    rw [List.append_assoc, List.map_append, List.map_append] at hplace
    refine (Follows.runCode hleft hplace.left).bind fun _ => ?_
    refine (Follows.runCode hright hplace.right_code.left).bind fun _ => ?_
    exact Follows.test hconditional hplace.right_code.right_code htrue hfalse
  | paren hinner ih =>
    rw [Expr.test]
    exact ih hplace htrue hfalse

/-- An entry of a table has a key exactly if its case has. -/
private theorem any_keys_of_answers {entry : TableCase} {case : Case}
    (h : entry.Answers scope case) (key : Constant) :
    entry.keys.any (fun candidate => candidate.same key) = case.hasKey scope key := by
  have hkeys := mapM_eq_ok_iff.mp h
  unfold Case.hasKey
  generalize entry.keys = constants at hkeys
  generalize case.keys = keys at hkeys
  induction hkeys with
  | nil => rfl
  | cons hkey hrest ih => rw [List.any_cons, List.any_cons, ih, hkey]

/-- A table finds the entry of the first case that has the key. -/
private theorem find?_eq_of_answers {entries : List TableCase} {cases : List Case}
    (h : List.Forall₂ (TableCase.Answers scope) entries cases) (id : Nat) (key : Constant) :
    (⟨id, entries⟩ : SwitchTable).find? key =
      (cases.findIdx? (Case.hasKey scope key)).bind fun index => entries[index]? := by
  unfold SwitchTable.find?
  induction h with
  | nil => rfl
  | @cons entry case entries cases hentry hrest ih =>
    rw [List.find?_cons, List.findIdx?_cons, any_keys_of_answers hentry]
    cases hkey : case.hasKey scope key with
    | true => simp
    | false =>
      simp only [Bool.false_eq_true, ↓reduceIte] at ih ⊢
      rw [ih]
      cases cases.findIdx? (Case.hasKey scope key) <;> simp

/-- Where a flat run goes on after a `switch` that is given a key. -/
private def switchTarget (script : CompiledScript) (position : Nat) (table : SwitchTable)
    (key : Constant) : Nat :=
  match table.find? key with
  | some entry => (script.offset? entry.label).getD 0
  | none => position + 1

/-- A `switch` goes to the label of an entry or to the next instruction. -/
private theorem choose_follows {id : Nat} {span : Span} {items : List Item} {position : Nat}
    {table : SwitchTable} (hplace : script.HasAt (.code (switchOn id span) :: items) position)
    (htable : script.table? id = some table)
    (hbound : ∀ entry ∈ table.cases, ∃ target, script.offset? entry.label = some target) :
    script.Follows oracle position (Exec.choose oracle) (switchTarget script position table) := by
  intro history
  have hstep := reaches_of_getElem? oracle history hplace.getElem?
  have hrun : script.runInstruction oracle position history (switchOn id span) =
      script.chooseBy oracle position history table := by
    have hfound : (switchOn id span).table?.bind script.table? = some table := htable
    unfold runInstruction
    rw [hfound]
    rfl
  rw [hrun] at hstep
  simp only [chooseBy] at hstep
  simp only [Exec.choose, switchTarget]
  cases hfind : table.find? (oracle.key history) with
  | none =>
    rw [hfind] at hstep
    exact hstep
  | some entry =>
    obtain ⟨target, htarget⟩ := hbound entry (List.mem_of_find?_eq_some hfind)
    rw [hfind] at hstep
    simp only [goTo_eq htarget] at hstep
    simpa only [htarget, Option.getD_some] using hstep

variable {rounds : Nat}

/-- Each case of a switch is followed from the label of its entry to the end of the switch. The
first case stands where the cases begin, and the default case has the label that was set aside. -/
def FollowsCases (script : CompiledScript) (oracle : Oracle) (trailers : Trailers) (scope : Scope)
    (rounds : Nat) (cases : List Case) (entries : List TableCase) (fallback : Option Label)
    (position final : Nat) : Prop :=
  ∀ (index : Nat) (case : Case), cases[index]? = some case →
    ∃ entry target, entries[index]? = some entry ∧ script.offset? entry.label = some target ∧
      (index = 0 → target = position) ∧
      (∀ set ∈ fallback, case.isDefault = true → entry.label = set) ∧
      script.Follows oracle target (Case.execAt trailers scope oracle rounds index cases)
        fun _ => final

/-- After a `switch` whose key no entry has, control gets to the default case, if there is one. -/
private theorem default_follows {cases : List Case} {entries : List TableCase}
    {fallback : Option Label} {done : Label} {span : Span} {items : List Item}
    {position final : Nat} (hfallback : fallback.isSome = cases.any Case.isDefault)
    (hplace : script.HasAt ((skipCode cases done fallback span).map .code ++ items) position)
    (hdone : script.offset? done = some final)
    (hcases : FollowsCases script oracle trailers scope rounds cases entries fallback
      (position + (skipCode cases done fallback span).length) final) :
    script.Follows oracle position
      (match cases.findIdx? Case.isDefault with
        | some index => Case.execAt trailers scope oracle rounds index cases
        | none => return ()) fun _ => final := by
  cases hindex : cases.findIdx? Case.isDefault with
  | none =>
    have hnone := List.findIdx?_eq_none_iff.mp hindex
    have hset : fallback = none := by
      rw [show cases.any Case.isDefault = false by simpa using hnone] at hfallback
      simpa using hfallback
    have hhead : (cases.head?.map Case.isDefault).getD false = false := by
      cases cases with
      | nil => rfl
      | cons case rest => exact hnone case List.mem_cons_self
    rw [skipCode, hhead, hset] at hplace
    exact .pure (passes_branchAlways hplace hdone)
  | some index =>
    obtain ⟨hlt, hdefault, hbefore⟩ := List.findIdx?_eq_some_iff_getElem.mp hindex
    obtain ⟨entry, target, -, htarget, hfirst, hset, hfollows⟩ :=
      hcases index cases[index] (List.getElem?_eq_getElem hlt)
    refine Follows.after_passes ?_ hfollows
    cases hhead : (cases.head?.map Case.isDefault).getD false with
    | true =>
      -- the default case is the first, and control runs into it
      have hzero : index = 0 := by
        by_contra hne
        refine hbefore 0 (Nat.pos_of_ne_zero hne) ?_
        cases cases with
        | nil => cases hhead
        | cons case rest => exact hhead
      rw [hfirst hzero, skipCode, hhead]
      exact .refl position
    | false =>
      have hany : cases.any Case.isDefault = true :=
        List.any_eq_true.mpr ⟨cases[index], List.getElem_mem hlt, hdefault⟩
      obtain ⟨set, rfl⟩ := Option.isSome_iff_exists.mp (hfallback.trans hany)
      rw [hset set rfl hdefault] at htarget
      rw [skipCode, hhead] at hplace
      exact passes_branchAlways hplace htarget

/-- A switch is followed if its cases are. -/
private theorem switch_realizes (hnodup : (boundLabels script.items).Nodup) (ty : Ty) (span : Span)
    {subject : Expr} {cases : List Case} {base : Nat} {code : List Instruction} {done : Label}
    {fallback : Option Label} {entries : List TableCase} {items : List Item}
    (hsubject : subject.code trailers .value = .ok code)
    (hfallback : fallback.isSome = cases.any Case.isDefault)
    (hanswers : List.Forall₂ (TableCase.Answers scope) entries cases)
    (htable : script.table? base = some ⟨base, entries⟩)
    (hcases : ∀ position final, script.HasAt items position → script.offset? done = some final →
      FollowsCases script oracle trailers scope rounds cases entries fallback position final) :
    script.Realizes oracle (code.map .code ++ .code (switchOn base span) ::
        ((skipCode cases done fallback span).map .code ++ (items ++ [.bind done])))
      ((Stmt.switch ty subject cases span).exec trailers scope oracle rounds) := by
  intro position hplace
  have hchoose := hplace.right_code
  have hcasesPlace := hchoose.tail_code.right_code
  have hdone := hcasesPlace.right.offset? hnodup
  have hcases := hcases _ _ hcasesPlace.left hdone
  have hlength : position + (codeOf (code.map .code ++ .code (switchOn base span) ::
      ((skipCode cases done fallback span).map .code ++ (items ++ [.bind done])))).length =
        position + code.length + 1 + (skipCode cases done fallback span).length +
          (codeOf items).length := by
    simp
    omega
  have hbound : ∀ entry ∈ entries, ∃ target, script.offset? entry.label = some target := by
    intro entry hentry
    obtain ⟨index, hlt, rfl⟩ := List.mem_iff_getElem.mp hentry
    obtain ⟨found, target, hfound, htarget, -⟩ :=
      hcases index _ (List.getElem?_eq_getElem (hanswers.length_eq ▸ hlt))
    rw [List.getElem?_eq_getElem hlt, Option.some.injEq] at hfound
    exact ⟨target, hfound ▸ htarget⟩
  rw [Stmt.exec, hlength]
  refine (Follows.runCode hsubject hplace.left).bind fun _ => ?_
  refine (choose_follows hchoose htable hbound).bind fun key => ?_
  have hfind := find?_eq_of_answers hanswers base key
  unfold switchTarget Case.choice?
  cases hindex : cases.findIdx? (Case.hasKey scope key) with
  | none =>
    rw [hindex] at hfind
    rw [hfind]
    exact default_follows hfallback hchoose.tail_code hdone hcases
  | some index =>
    obtain ⟨hlt, -⟩ := List.findIdx?_eq_some_iff_getElem.mp hindex
    obtain ⟨entry, target, hentry, htarget, -, -, hfollows⟩ :=
      hcases index cases[index] (List.getElem?_eq_getElem hlt)
    rw [hindex, Option.bind_some, hentry] at hfind
    rw [hfind]
    simp only [htarget]
    exact hfollows

/-- A conditional without a second arm is followed if its arm is. -/
private theorem ifThen_realizes (hnodup : (boundLabels script.items).Nodup) {test : Expr}
    {onTrue : Stmt} {span : Span} {whenTrue done : Label} {testItems arm : List Item}
    (htest : TestCode trailers test whenTrue done testItems)
    (harm : script.Realizes oracle arm (onTrue.exec trailers scope oracle rounds)) :
    script.Realizes oracle (testItems ++ .bind whenTrue ::
        (arm ++ [.code (branchAlways done span), .bind done]))
      ((Stmt.ifThen test onTrue span).exec trailers scope oracle rounds) := by
  intro position hplace
  have hinside := hplace.right.tail_bind
  have hend := hinside.right
  have hdone := hend.tail_code.offset? hnodup
  have hlength : position + (codeOf (testItems ++ .bind whenTrue ::
      (arm ++ [.code (branchAlways done span), .bind done]))).length =
        position + (codeOf testItems).length + (codeOf arm).length + 1 := by
    simp
    omega
  rw [Stmt.exec, hlength]
  refine (htest.follows hnodup hplace.left (hplace.right.offset? hnodup) hdone).bind
    fun holds => ?_
  cases holds with
  | true =>
    exact (harm _ hinside.left).before_passes fun _ => passes_branchAlways hend hdone
  | false => exact .pure (.refl _)

/-- A conditional is followed if both of its arms are. -/
private theorem ifElse_realizes (hnodup : (boundLabels script.items).Nodup) {test : Expr}
    {onTrue onFalse : Stmt} {span : Span} {whenTrue whenFalse done : Label}
    {testItems first second : List Item}
    (htest : TestCode trailers test whenTrue whenFalse testItems)
    (hfirst : script.Realizes oracle first (onTrue.exec trailers scope oracle rounds))
    (hsecond : script.Realizes oracle second (onFalse.exec trailers scope oracle rounds)) :
    script.Realizes oracle (testItems ++ .bind whenTrue ::
        (first ++ .code (branchAlways done span) :: .bind whenFalse ::
          (second ++ [.code (branchAlways done span), .bind done])))
      ((Stmt.ifElse test onTrue onFalse span).exec trailers scope oracle rounds) := by
  intro position hplace
  have hinside := hplace.right.tail_bind
  have hleave := hinside.right
  have hother := hleave.tail_code.tail_bind
  have hend := hother.right
  have hdone := hend.tail_code.offset? hnodup
  have hlength : position + (codeOf (testItems ++ .bind whenTrue ::
      (first ++ .code (branchAlways done span) :: .bind whenFalse ::
        (second ++ [.code (branchAlways done span), .bind done])))).length =
      position + (codeOf testItems).length + (codeOf first).length + 1 +
        (codeOf second).length + 1 := by
    simp
    omega
  rw [Stmt.exec, hlength]
  refine (htest.follows hnodup hplace.left (hplace.right.offset? hnodup)
    (hleave.tail_code.offset? hnodup)).bind fun holds => ?_
  cases holds with
  | true =>
    exact (hfirst _ hinside.left).before_passes fun _ => passes_branchAlways hleave hdone
  | false =>
    exact (hsecond _ hother.left).before_passes fun _ => passes_branchAlways hend hdone

/-- A loop is followed if its body is. -/
private theorem whileLoop_realizes (hnodup : (boundLabels script.items).Nodup) {test : Expr}
    {body : Stmt} {span : Span} {start inside done : Label} {testItems bodyItems : List Item}
    (htest : TestCode trailers test inside done testItems)
    (hbody : script.Realizes oracle bodyItems (body.exec trailers scope oracle rounds)) :
    script.Realizes oracle (.bind start :: (testItems ++ .bind inside ::
        (bodyItems ++ [.code (branchAlways start span), .bind done])))
      ((Stmt.whileLoop test body span).exec trailers scope oracle rounds) := by
  intro position hplace
  have htestPlace := hplace.tail_bind
  have hinside := htestPlace.right.tail_bind
  have hend := hinside.right
  have hdone := hend.tail_code.offset? hnodup
  have hlength : position + (codeOf (.bind start :: (testItems ++ .bind inside ::
      (bodyItems ++ [.code (branchAlways start span), .bind done])))).length =
        position + (codeOf testItems).length + (codeOf bodyItems).length + 1 := by
    simp
    omega
  rw [Stmt.exec, hlength]
  refine Follows.loop (htest.follows hnodup htestPlace.left (htestPlace.right.offset? hnodup)
    hdone) ?_ rounds
  exact (hbody _ hinside.left).before_passes fun _ =>
    passes_branchAlways hend (hplace.offset? hnodup)

mutual

/-- A statement is followed to its end. -/
theorem StmtCode.realizes (hnodup : (boundLabels script.items).Nodup) :
    ∀ {s : Stmt} {base : Nat} {items : List Item} {tables : List SwitchTable},
      StmtCode trailers scope s base items tables →
      (∀ table ∈ tables, script.table? table.id = some table) →
      script.Realizes oracle items (s.exec trailers scope oracle rounds)
  | _, _, _, _, .straight hmark hcode, _ => by
    rw [Stmt.exec_of_straight? trailers scope oracle rounds hcode, List.map_append]
    exact (Realizes.runAll (Stmt.isPlain_straight? trailers hcode _ rfl)).after_mark hmark
  | _, _, _, _, .block hbody, htables => by
    rw [Stmt.exec]
    exact hbody.realizes hnodup htables
  | _, _, _, _, .ifThen hmark htest harm, htables =>
    (ifThen_realizes hnodup htest (harm.realizes hnodup htables)).after_mark hmark
  | _, _, _, _, .ifElse hmark htest hfirst hsecond, htables => by
    rw [List.forall_mem_append] at htables
    exact (ifElse_realizes hnodup htest (hfirst.realizes hnodup htables.1)
      (hsecond.realizes hnodup htables.2)).after_mark hmark
  | _, _, _, _, .whileLoop hmark htest hbody, htables =>
    (whileLoop_realizes hnodup htest (hbody.realizes hnodup htables)).after_mark hmark
  | _, _, _, _, @StmtCode.switch _ _ ty _ _ span _ _ _ _ _ _ _ _ hmark hsubject hfallback hcases,
      htables => by
    rw [List.forall_mem_cons] at htables
    have hswitch := switch_realizes hnodup ty span hsubject hfallback hcases.entries.2 htables.1
      fun _ _ hplace hdone => hcases.follows hnodup hplace htables.2 hdone
    simpa using hswitch.after_mark hmark

/-- Statements are followed to their end. -/
theorem StmtsCode.realizes (hnodup : (boundLabels script.items).Nodup) :
    ∀ {body : List Stmt} {base : Nat} {items : List Item} {tables : List SwitchTable},
      StmtsCode trailers scope body base items tables →
      (∀ table ∈ tables, script.table? table.id = some table) →
      script.Realizes oracle items (Stmt.execAll trailers scope oracle rounds body)
  | _, _, _, _, .nil, _ => by
    rw [Stmt.execAll]
    exact .nil
  | _, _, _, _, .cons hfirst hrest, htables => by
    rw [Stmt.execAll]
    rw [List.forall_mem_append] at htables
    exact (hfirst.realizes hnodup htables.1).append (hrest.realizes hnodup htables.2)

/-- The cases of a switch are followed. -/
theorem CasesCode.follows (hnodup : (boundLabels script.items).Nodup) :
    ∀ {cases : List Case} {base : Nat} {done : Label} {fallback : Option Label}
      {entries : List TableCase} {items : List Item} {tables : List SwitchTable}
      {position final : Nat},
      CasesCode trailers scope cases base done fallback entries items tables →
      script.HasAt items position →
      (∀ table ∈ tables, script.table? table.id = some table) →
      script.offset? done = some final →
      FollowsCases script oracle trailers scope rounds cases entries fallback position final
  | _, _, _, _, _, _, _, position, final, .nil, _, _, _, index, case, hcase => by
    cases hcase
  | _, _, _, _, _, _, _, position, final, .cons hlabel hkeys hbody hrest, hplace, htables, hdone,
      0, case, hcase => by
    cases hcase
    rw [List.forall_mem_append] at htables
    have hinside := hplace.tail_bind
    refine ⟨_, position, rfl, hplace.offset? hnodup, fun _ => rfl, hlabel, ?_⟩
    rw [Case.execAt]
    exact (hbody.realizes hnodup htables.1 _ hinside.left).before_passes fun _ =>
      passes_branchAlways hinside.right hdone
  | _, _, _, _, _, _, _, position, final, .cons hlabel hkeys hbody hrest, hplace, htables, hdone,
      index + 1, case, hcase => by
    rw [List.forall_mem_append] at htables
    obtain ⟨entry, target, hentry, htarget, -, hset, hfollows⟩ :=
      hrest.follows hnodup hplace.tail_bind.right.tail_code htables.2 hdone index case hcase
    refine ⟨entry, target, hentry, htarget, by simp, hset, ?_⟩
    rw [Case.execAt]
    exact hfollows

end

/-- Code that ends in a return ends the run. -/
private theorem runAll_append_leave (code : List Instruction) {leave : Instruction}
    (hleave : leave.opcode.isExit = true) (history : History) :
    ∃ after, Exec.runAll (code ++ [leave]) history = .error .ended after := by
  induction code generalizing history with
  | nil =>
    refine ⟨history ++ [.ran leave], ?_⟩
    change EStateM.bind (Exec.run leave) _ history = _
    simp [EStateM.bind, Exec.run, hleave]
  | cons first rest ih =>
    change ∃ after, EStateM.bind (Exec.run first) (fun _ => Exec.runAll (rest ++ [leave])) history =
      .error .ended after
    cases hexit : first.opcode.isExit with
    | true => exact ⟨history ++ [.ran first], by simp [EStateM.bind, Exec.run, hexit]⟩
    | false =>
      obtain ⟨after, hafter⟩ := ih (history ++ [.ran first])
      exact ⟨after, by simpa [EStateM.bind, Exec.run, hexit] using hafter⟩

/-- A script whose return can be given never runs past it. -/
private theorem exec_ne_ok {decl : ScriptDecl} {code : List Instruction}
    (hcode : defaultLeaveCode decl.symbol.returns decl.span = .ok code) (history after : History) :
    decl.exec trailers scope oracle rounds history ≠ .ok () after := by
  obtain ⟨values, _, -, ⟨⟩, rfl⟩ := StraightCode.append_eq_ok_iff.mp hcode
  unfold ScriptDecl.exec
  rw [hcode]
  change EStateM.bind _ _ history ≠ _
  unfold EStateM.bind
  split
  · next middle hbody =>
    obtain ⟨final, hfinal⟩ := runAll_append_leave values
      (show ({ opcode := .leave : Instruction }.atSpan decl.span).opcode.isExit = true from rfl)
      middle
    change Exec.runAll _ middle ≠ _
    rw [hfinal]
    exact nofun
  · exact nofun

/-- The run of an emitted script follows the run by its tree, which always stops. -/
private theorem flatRun_follows {generator : Generator} {decl : ScriptDecl}
    {script : CompiledScript} (hhandlers : generator.handlers = trailers.handlers)
    (hsingle : SingleDefaults (Stmt.switchesOf decl.body))
    (hrun : (generator.script decl).1 = .ok script) (oracle : Oracle) (rounds : Nat) :
    ∃ ending history steps,
      decl.exec trailers generator.scope oracle rounds [] = .error ending history ∧
      (ending = .ended → script.flatRun oracle steps = .ended history) ∧
      (ending = .outOfRounds → ∃ later, script.flatRun oracle steps = .running later history) := by
  obtain ⟨items, code, hbody, hleave, hitems, hdistinct⟩ := Generator.script_lays hhandlers hrun
  have hnodup := hdistinct hsingle
  have hformed := Generator.wellFormed_script (hhandlers ▸ trailers.areTrailers_handlers) hsingle
    hrun
  have hplace : script.HasAt (.bind .entry :: (items ++ code.map .code)) 0 :=
    ⟨[], [], by simpa using hitems, rfl⟩
  have hparts := hplace.tail_bind
  have hfollows : script.Follows oracle 0 (decl.exec trailers generator.scope oracle rounds)
      fun _ => 0 + (codeOf items).length + code.length := by
    refine (hbody.realizes hnodup (fun table htable => hformed.table?_id htable) 0
      hparts.left).bind fun _ => ?_
    rw [hleave]
    exact Follows.runAll hparts.right (isPlain_defaultLeaveCode _ _ code hleave)
  have hstart : script.goTo .entry [] = .running 0 [] := goTo_eq (hplace.offset? hnodup) []
  have hreach := hfollows []
  cases hexec : decl.exec trailers generator.scope oracle rounds [] with
  | ok value history => exact absurd hexec (exec_ne_ok hleave [] history)
  | error ending history =>
    rw [hexec] at hreach
    cases ending with
    | ended =>
      obtain ⟨steps, hsteps⟩ := hreach
      refine ⟨.ended, history, steps, rfl, fun _ => by rw [flatRun, hstart, hsteps], ?_⟩
      intro hending
      cases hending
    | outOfRounds =>
      obtain ⟨later, steps, hsteps⟩ := hreach
      refine ⟨.outOfRounds, history, steps, rfl, ?_, fun _ =>
        ⟨later, by rw [flatRun, hstart, hsteps]⟩⟩
      intro hending
      cases hending

/-- A run by the tree that is given too few rounds has a long history. -/
private theorem le_length_of_outOfRounds {decl : ScriptDecl} {history : History}
    (h : decl.exec trailers scope oracle rounds [] = .error .outOfRounds history) :
    rounds ≤ history.length := by
  have hgoes := decl.goes_exec trailers scope oracle rounds []
  rw [h] at hgoes
  simpa using hgoes

/-- The flat run of an emitted script never gets stuck. -/
private theorem not_isStuck_flatRun {generator : Generator} {decl : ScriptDecl}
    {script : CompiledScript} (hhandlers : generator.handlers = trailers.handlers)
    (hsingle : SingleDefaults (Stmt.switchesOf decl.body))
    (hrun : (generator.script decl).1 = .ok script) (oracle : Oracle) (steps : Nat) :
    ¬ (script.flatRun oracle steps).IsStuck := by
  intro hstuck
  obtain ⟨ending, history, enough, hexec, hended, hrunning⟩ :=
    flatRun_follows hhandlers hsingle hrun oracle (steps + 1)
  cases ending with
  | ended =>
    have hlater := isStuck_flatRun hstuck (Nat.le_max_left steps enough)
    rw [flatRun_eq_of_ended (hended rfl) (Nat.le_max_right steps enough)] at hlater
    exact hlater
  | outOfRounds =>
    obtain ⟨later, hstate⟩ := hrunning rfl
    have hlength := length_history_flatRun_le script oracle enough
    rw [hstate] at hlength
    have hle : steps ≤ enough := by
      have hrounds := le_length_of_outOfRounds hexec
      change history.length ≤ enough at hlength
      omega
    have hlater := isStuck_flatRun hstuck hle
    rw [hstate] at hlater
    exact hlater

/-- An emitted script runs as its tree. The flat run never gets stuck, and for every length it has,
once it is long enough, the same events up to that length as the run by the tree with at least as
many rounds for each loop. If the run by the tree is shorter, both runs have ended. -/
theorem Generator.script_runs_as_tree {generator : Generator} {decl : ScriptDecl}
    {script : CompiledScript} (hhandlers : generator.handlers.entries = [])
    (hsingle : SingleDefaults (Stmt.switchesOf decl.body))
    (hrun : (generator.script decl).1 = .ok script) (oracle : Oracle) :
    (∀ steps, ¬ (script.flatRun oracle steps).IsStuck) ∧
      ∀ n rounds, n ≤ rounds → ∃ ending history,
        decl.exec [] generator.scope oracle rounds [] = .error ending history ∧
        (history.length < n → ending = .ended) ∧
        ∃ enough, ∀ steps, enough ≤ steps →
          (script.flatRun oracle steps).history.take n = history.take n ∧
          (ending = .ended → script.flatRun oracle steps = .ended history) := by
  have hnone : generator.handlers = Trailers.handlers [] := congrArg Handlers.mk hhandlers
  refine ⟨not_isStuck_flatRun hnone hsingle hrun oracle, fun n rounds hle => ?_⟩
  obtain ⟨ending, history, enough, hexec, hended, hrunning⟩ :=
    flatRun_follows hnone hsingle hrun oracle rounds
  refine ⟨ending, history, hexec, ?_, enough, fun steps hsteps => ?_⟩
  · intro hlt
    cases ending with
    | ended => rfl
    | outOfRounds =>
      have hlength := le_length_of_outOfRounds hexec
      omega
  · cases ending with
    | ended =>
      have hstate := flatRun_eq_of_ended (hended rfl) hsteps
      exact ⟨by rw [hstate]; rfl, fun _ => hstate⟩
    | outOfRounds =>
      refine ⟨?_, nofun⟩
      obtain ⟨later, hstate⟩ := hrunning rfl
      have hprefix := history_flatRun_prefix script oracle hsteps
      rw [hstate] at hprefix
      obtain ⟨events, hevents⟩ := hprefix
      have hlength := le_length_of_outOfRounds hexec
      rw [← hevents]
      exact List.take_append_of_le_length (by change n ≤ history.length; omega)

/-- A script that chooses between a default case and another one in each round of a loop. -/
private def chooseInLoop : ScriptDecl :=
  let one : Expr := .literal (.int 1) .int none .unknown
  let choice : List Case := [.mk [] true [] .unknown, .mk [one] false [.leave [] .unknown] .unknown]
  let test : Expr := .condition one (.compare .lessThan) one .unknown
  ⟨⟨.proc, "wait", [], []⟩, [],
    [.whileLoop test (.switch .int one choice .unknown) .unknown], .unknown⟩

theorem Generator.script_runs_as_tree_chooseInLoop :
    ∃ script, (({} : Generator).script chooseInLoop).1 = .ok script ∧
      ∀ steps, ¬ (script.flatRun ⟨fun _ _ => true, fun history => .int
        (if history.length < 9 then 0 else 1)⟩ steps).IsStuck := by
  obtain ⟨script, hscript⟩ :=
    exists_script_of_isOk (show (({} : Generator).script chooseInLoop).1.isOk = true by
      decide +kernel)
  have hsingle : SingleDefaults (Stmt.switchesOf chooseInLoop.body) := by decide +kernel
  exact ⟨script, hscript, (script_runs_as_tree rfl hsingle hscript _).1⟩

end ScriptBackend

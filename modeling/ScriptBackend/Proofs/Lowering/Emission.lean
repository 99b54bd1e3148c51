import ScriptBackend.Proofs.Emitter.Labels
import ScriptBackend.Proofs.Lowering.Shape

/-!
# Lowering lays out the shape of its tree

Every step of lowering only adds: items after the items that are there, switch tables after the
tables that are there, labels to those that are given. What a successful step adds for a node has
the shape of the node. The labels that are given for it are those that it binds, each once, provided
that no switch has more than one default case.
-/

namespace ScriptBackend

/-- Between two states of the emitter some items and some switch tables were added, and some labels
were given. -/
structure Emitter.Adds (before after : Emitter) (items : List Item) (tables : List SwitchTable)
    (given : List Label) : Prop where
  /-- The items were added after all others. -/
  items_eq : after.items = before.items ++ items
  /-- The tables were added after all others. -/
  tables_eq : after.tables = before.tables ++ tables
  /-- The labels were not given before. -/
  gives : before.labels.Gives after.labels given

namespace Emitter.Adds

variable {before middle after : Emitter} {first second : List Item}
  {firstTables secondTables : List SwitchTable} {given later : List Label}

/-- Nothing is added where nothing happens. -/
theorem refl (emitter : Emitter) : Adds emitter emitter [] [] [] :=
  ⟨(List.append_nil _).symm, (List.append_nil _).symm, .refl _⟩

/-- What is added first stands before what is added next. -/
theorem trans (hfirst : Adds before middle first firstTables given)
    (hsecond : Adds middle after second secondTables later) :
    Adds before after (first ++ second) (firstTables ++ secondTables) (given ++ later) :=
  ⟨by rw [hsecond.items_eq, hfirst.items_eq, List.append_assoc],
    by rw [hsecond.tables_eq, hfirst.tables_eq, List.append_assoc],
    hfirst.gives.append hsecond.gives⟩

/-- The tables are numbered on from those that were there. -/
theorem length_tables (h : Adds before after first firstTables given) :
    after.tables.length = before.tables.length + firstTables.length := by
  rw [h.tables_eq, List.length_append]

/-- An open block stays open. -/
theorem isOpen (h : Adds before after first firstTables given) (hopen : before.blocks ≠ []) :
    after.blocks ≠ [] := by
  intro hnil
  have hitems := h.items_eq
  rw [items_eq_nil_iff.mpr hnil, eq_comm, List.append_eq_nil_iff, items_eq_nil_iff] at hitems
  exact hopen hitems.1

end Emitter.Adds

/-- No switch of a list has more than one default case. -/
def SingleDefaults (switches : List (Expr × List Case)) : Prop :=
  ∀ switch ∈ switches, switch.2.countP Case.isDefault ≤ 1

instance (switches : List (Expr × List Case)) : Decidable (SingleDefaults switches) :=
  inferInstanceAs (Decidable (∀ switch ∈ switches, switch.2.countP Case.isDefault ≤ 1))

theorem SingleDefaults.left {first second : List (Expr × List Case)}
    (h : SingleDefaults (first ++ second)) : SingleDefaults first :=
  fun switch hswitch => h switch (List.mem_append_left second hswitch)

theorem SingleDefaults.right {first second : List (Expr × List Case)}
    (h : SingleDefaults (first ++ second)) : SingleDefaults second :=
  fun switch hswitch => h switch (List.mem_append_right first hswitch)

namespace Lower

variable {start final : LowerState}

/-- An emitted instruction is the last item. -/
theorem emit_adds {instruction : Instruction} (hrun : emit instruction start = .ok () final)
    (hopen : start.emitter.blocks ≠ []) :
    start.emitter.Adds final.emitter [.code instruction] [] [] := by
  cases hrun
  exact ⟨itemsOf_appendInstruction instruction hopen, (List.append_nil _).symm, .refl _⟩

/-- Emitted instructions are the last items. -/
private theorem emitAll_adds (emitter : Emitter) (hopen : emitter.blocks ≠ [])
    (instructions : List Instruction) :
    emitter.Adds (emitter.emitAll instructions) (instructions.map .code) [] [] := by
  induction instructions generalizing emitter with
  | nil => exact .refl emitter
  | cons first rest ih =>
    have hfirst : emitter.Adds (emitter.emit first) [.code first] [] [] :=
      ⟨itemsOf_appendInstruction first hopen, (List.append_nil _).symm, .refl _⟩
    exact hfirst.trans (ih _ (hfirst.isOpen hopen))

/-- A step that emits code adds the code. -/
theorem Emits.adds {step : Lower Unit} {outcome : StraightCode} {slots : LocalTable → LocalTable}
    (h : Emits step outcome slots) (hrun : step start = .ok () final)
    (hopen : start.emitter.blocks ≠ []) :
    ∃ code, outcome = .ok code ∧
      start.emitter.Adds final.emitter (code.map .code) [] [] := by
  obtain ⟨code, hcode, rfl⟩ := h.eq_ok_iff.mp hrun
  exact ⟨code, hcode, emitAll_adds _ hopen code⟩

/-- A bound label is the last item. -/
theorem bindLabel_adds {label : Label} (hrun : bindLabel label start = .ok () final) :
    start.emitter.Adds final.emitter [.bind label] [] [] := by
  cases hrun
  exact ⟨by simp [Emitter.items, itemsOf, Emitter.bind, Block.items],
    (List.append_nil _).symm, .refl _⟩

/-- A computation that changes nothing succeeds exactly with its value. -/
private theorem ofExcept_eq_ok_iff {α : Type} {outcome : Except LoweringError α} {value : α} :
    ofExcept outcome start = .ok value final ↔ outcome = .ok value ∧ final = start := by
  cases outcome with
  | ok result => simp [ofExcept, eq_comm]
  | error error => simp [ofExcept]

/-- A label that is taken is given. -/
theorem takeLabel_adds {base : String} {label : Label}
    (hrun : takeLabel base start = .ok label final) :
    start.emitter.Adds final.emitter [] [] [label] := by
  cases hrun
  exact ⟨(List.append_nil _).symm, (List.append_nil _).symm, .take _ base⟩

/-- Marking a line adds the marker of the line or nothing. -/
theorem markLine_adds {span : Span} (hrun : markLine span start = .ok () final)
    (hopen : start.emitter.blocks ≠ []) :
    ∃ mark, IsMark span mark ∧ start.emitter.Adds final.emitter (mark.map .code) [] [] := by
  cases hrun
  change ∃ mark, _ ∧ start.emitter.Adds (start.emitter.markLine span) _ _ _
  unfold Emitter.markLine
  cases hmarker : start.emitter.lines.marker? span with
  | none => exact ⟨[], .inl rfl, .refl _⟩
  | some marker =>
    have hline : marker = lineMarker span := by
      unfold LineTracker.marker? at hmarker
      split at hmarker
      · cases hmarker
        rfl
      · cases hmarker
    exact ⟨[marker], .inr (by rw [hline]), itemsOf_appendInstruction marker hopen,
      (List.append_nil _).symm, .refl _⟩

variable {context : Context} {trailers : Trailers}

/-- The operands of a connective lay out their items around the label of the second. -/
private theorem operands_add {started taken tried bound done : Emitter} {next : Label}
    {first second : List Item} {given later : List Label} (htaken : started.Adds taken [] [] [next])
    (hfirst : taken.Adds tried first [] given) (hbound : tried.Adds bound [.bind next] [] [])
    (hsecond : bound.Adds done second [] later) (hgiven : (boundLabels first).Perm given)
    (hlater : (boundLabels second).Perm later) :
    started.Adds done (first ++ .bind next :: second) [] (next :: (given ++ later)) ∧
      (boundLabels (first ++ .bind next :: second)).Perm (next :: (given ++ later)) := by
  constructor
  · simpa using htaken.trans (hfirst.trans (hbound.trans hsecond))
  · simpa using List.perm_middle.trans ((hgiven.append hlater).cons next)

/-- A condition lays out the shape of its tree, and is given the labels that it binds. -/
theorem condition_adds (h : context.handlers = trailers.handlers) {e : Expr}
    {onTrue onFalse : Label} (hrun : condition context e onTrue onFalse start = .ok () final)
    (hopen : start.emitter.blocks ≠ []) :
    ∃ items given, TestCode trailers e onTrue onFalse items ∧
      start.emitter.Adds final.emitter items [] given ∧ (boundLabels items).Perm given := by
  induction e, onTrue, onFalse using condition.induct generalizing start final with
  | case1 left right span onTrue onFalse ihleft ihright =>
    rw [condition] at hrun
    obtain ⟨next, taken, htake, hrun⟩ := bind_eq_ok_iff.mp hrun
    obtain ⟨_, tried, hleft, hrun⟩ := bind_eq_ok_iff.mp hrun
    obtain ⟨_, bound, hbind, hright⟩ := bind_eq_ok_iff.mp hrun
    have htaken := takeLabel_adds htake
    obtain ⟨first, given, hfirst, hadds, hperm⟩ := ihleft _ hleft (htaken.isOpen hopen)
    have hbound := bindLabel_adds hbind
    obtain ⟨second, later, hsecond, hadds', hperm'⟩ :=
      ihright hright (((htaken.trans hadds).trans hbound).isOpen hopen)
    exact ⟨_, _, .both hfirst hsecond, operands_add htaken hadds hbound hadds' hperm hperm'⟩
  | case2 left right span onTrue onFalse ihleft ihright =>
    rw [condition] at hrun
    obtain ⟨next, taken, htake, hrun⟩ := bind_eq_ok_iff.mp hrun
    obtain ⟨_, tried, hleft, hrun⟩ := bind_eq_ok_iff.mp hrun
    obtain ⟨_, bound, hbind, hright⟩ := bind_eq_ok_iff.mp hrun
    have htaken := takeLabel_adds htake
    obtain ⟨first, given, hfirst, hadds, hperm⟩ := ihleft _ hleft (htaken.isOpen hopen)
    have hbound := bindLabel_adds hbind
    obtain ⟨second, later, hsecond, hadds', hperm'⟩ :=
      ihright hright (((htaken.trans hadds).trans hbound).isOpen hopen)
    exact ⟨_, _, .either hfirst hsecond, operands_add htaken hadds hbound hadds' hperm hperm'⟩
  | case3 left comparison right span onTrue onFalse =>
    rw [condition] at hrun
    have hemits := (expr_emits h .value left).bind ((expr_emits h .value right).bind
      ((emits_emitResult (comparisonBranch comparison left.ty onTrue span)).bind
        (emits_emit (branchAlways onFalse span))))
    obtain ⟨code, hcode, hadds⟩ := hemits.adds hrun hopen
    obtain ⟨first, _, hleft, hrest, rfl⟩ := StraightCode.append_eq_ok_iff.mp hcode
    obtain ⟨second, _, hright, hbranches, rfl⟩ := StraightCode.append_eq_ok_iff.mp hrest
    obtain ⟨_, _, hsingle, ⟨⟩, rfl⟩ := StraightCode.append_eq_ok_iff.mp hbranches
    obtain ⟨branch, hbranch, rfl⟩ := StraightCode.single_eq_ok_iff.mp hsingle
    exact ⟨_, [], .compare hleft hright hbranch, by simpa using hadds, by simp⟩
  | case4 inner span onTrue onFalse ih =>
    rw [condition] at hrun
    obtain ⟨items, given, hitems, hadds⟩ := ih hrun hopen
    exact ⟨items, given, .paren hitems, hadds⟩
  | case5 e onTrue onFalse =>
    rw [condition] at hrun
    · cases hrun
    all_goals assumption

/-- What a step lays out for a part of a script: items and tables of a given shape, and labels that
are those bound by the items, each once, if no switch of the part has two default cases. -/
def Lays (shape : Nat → List Item → List SwitchTable → Prop) (switches : List (Expr × List Case))
    (before after : Emitter) : Prop :=
  ∃ items tables given, shape before.tables.length items tables ∧
    before.Adds after items tables given ∧
    (SingleDefaults switches → (boundLabels items).Perm given)

/-- A statement without control flow lays out its straight code. -/
private theorem straight_lays (h : context.handlers = trailers.handlers) {s : Stmt}
    {outcome : StraightCode} (hcode : s.straight? trailers = some outcome)
    (hrun : stmt context s start = .ok () final) (hopen : start.emitter.blocks ≠ []) :
    Lays (StmtCode trailers context.scope s) s.switches start.emitter final.emitter := by
  obtain ⟨step, hstmt, hstep⟩ := stmt_eq_of_straight? h hcode
  rw [hstmt] at hrun
  obtain ⟨_, marked, hmark, hrun⟩ := bind_eq_ok_iff.mp hrun
  obtain ⟨mark, hmark, hmarked⟩ := markLine_adds hmark hopen
  obtain ⟨code, rfl, hadds⟩ := hstep.adds hrun (hmarked.isOpen hopen)
  exact ⟨_, _, [], .straight hmark hcode, by simpa using hmarked.trans hadds, by simp⟩

/-- Taking the number of a table adds the table without entries. -/
private theorem takeTable_adds {table : Nat} (hrun : takeTable start = .ok table final) :
    table = start.emitter.tables.length ∧ start.emitter.Adds final.emitter [] [⟨table, []⟩] [] := by
  cases hrun
  exact ⟨rfl, (List.append_nil _).symm, rfl, .refl _⟩

/-- The labels that cases bind though they were set aside before: that of the default cases. -/
private def reusedLabels (fallback : Option Label) : List Case → List Label
  | [] => []
  | .mk _ isDefault _ _ :: rest =>
    (if isDefault then fallback.toList else []) ++ reusedLabels fallback rest

/-- The label of a case is given to it or was set aside for it. -/
private theorem caseLabel_adds {fallback : Option Label} {isDefault : Bool} {label : Label}
    (hrun : caseLabel fallback isDefault start = .ok label final) :
    ∃ given, start.emitter.Adds final.emitter [] [] given ∧
      (∀ set ∈ fallback, isDefault = true → label = set) ∧
      [label] = given ++ if isDefault then fallback.toList else [] := by
  cases fallback with
  | none => exact ⟨[label], takeLabel_adds hrun, by simp, by simp⟩
  | some set =>
    cases isDefault with
    | false => exact ⟨[label], takeLabel_adds hrun, by simp, by simp⟩
    | true =>
      cases hrun
      exact ⟨[], .refl _, by simp, by simp⟩

/-- No case binds a label again if none was set aside. -/
private theorem reusedLabels_none (cases : List Case) : reusedLabels none cases = [] := by
  induction cases with
  | nil => rfl
  | cons case rest ih =>
    obtain ⟨keys, isDefault, body, span⟩ := case
    cases isDefault <;> simp [reusedLabels, ih]

/-- The label that was set aside is bound once for each default case. -/
private theorem reusedLabels_some (set : Label) (cases : List Case) :
    reusedLabels (some set) cases = List.replicate (cases.countP Case.isDefault) set := by
  induction cases with
  | nil => rfl
  | cons case rest ih =>
    obtain ⟨keys, isDefault, body, span⟩ := case
    rw [reusedLabels, ih, List.countP_cons]
    cases isDefault <;> simp [Case.isDefault, List.replicate_succ]

/-- Set a label aside for the default cases if there are any. -/
def setAside (cases : List Case) : Lower (Option Label) :=
  if cases.any Case.isDefault then some <$> takeLabel "switch_default_case" else pure none

/-- Pass the cases, to the default case or to the end, unless the default case is first. -/
def skip (cases : List Case) (done : Label) (fallback : Option Label) (span : Span) :
    Lower Unit :=
  if (cases.head?.map Case.isDefault).getD false then pure ()
  else emit (branchAlways (fallback.getD done) span)

/-- A switch is lowered by these steps in order. -/
theorem stmt_switch (ty : Ty) (subject : Expr) (cases : List Case) (span : Span) :
    stmt context (.switch ty subject cases span) = (do
      markLine span
      let table ← takeTable
      let done ← takeLabel "switch_end"
      let fallback ← setAside cases
      expr context .value subject
      emit (switchOn table span)
      skip cases done fallback span
      switchCases context table done fallback cases
      bindLabel done) := by
  rw [stmt]
  unfold setAside skip switchOn
  cases cases.any Case.isDefault <;> cases (cases.head?.map Case.isDefault).getD false <;> rfl

/-- A label is set aside for the default cases exactly if there are any, and only they bind it. -/
private theorem setAside_adds {cases : List Case} {fallback : Option Label}
    (hrun : setAside cases start = .ok fallback final) :
    start.emitter.Adds final.emitter [] [] fallback.toList ∧
      fallback.isSome = cases.any Case.isDefault ∧
      (cases.countP Case.isDefault ≤ 1 → reusedLabels fallback cases = fallback.toList) := by
  unfold setAside at hrun
  cases hany : cases.any Case.isDefault with
  | false =>
    rw [hany] at hrun
    cases hrun
    exact ⟨.refl _, rfl, fun _ => reusedLabels_none cases⟩
  | true =>
    rw [hany] at hrun
    cases hrun
    refine ⟨takeLabel_adds rfl, rfl, fun hle => ?_⟩
    have hpos : 0 < cases.countP Case.isDefault := by
      rw [List.countP_pos_iff]
      exact List.any_eq_true.mp hany
    rw [reusedLabels_some, show cases.countP Case.isDefault = 1 by omega]
    rfl

/-- The branch after a `switch` is added unless control runs into the default case. -/
private theorem skip_adds {cases : List Case} {done : Label} {fallback : Option Label} {span : Span}
    (hrun : skip cases done fallback span start = .ok () final)
    (hopen : start.emitter.blocks ≠ []) :
    start.emitter.Adds final.emitter ((skipCode cases done fallback span).map .code) [] [] := by
  unfold skip at hrun
  unfold skipCode
  split at hrun
  · next hfirst =>
    cases hrun
    rw [if_pos hfirst]
    exact .refl _
  · next hfirst =>
    rw [if_neg hfirst]
    exact emit_adds hrun hopen

/-- A new entry is the last of its table, and nothing else changes. -/
private theorem addCase_emitter {table : Nat} {case : TableCase} {outer inner : List SwitchTable}
    {filled : List TableCase} (hrun : addCase table case start = .ok () final)
    (htables : start.emitter.tables = outer ++ ⟨outer.length, filled⟩ :: inner)
    (htable : table = outer.length) :
    final.emitter =
      { start.emitter with tables := outer ++ ⟨outer.length, filled ++ [case]⟩ :: inner } := by
  cases hrun
  simp [Emitter.addCase, htables, htable, List.modify_eq_take_cons_drop, SwitchTable.push]

/-- What the cases of a switch lay out, whose table has entries already and stands before some
nested tables. -/
private def LaysCases (trailers : Trailers) (scope : Scope) (cases : List Case) (done : Label)
    (fallback : Option Label) (outer : List SwitchTable) (filled : List TableCase)
    (inner : List SwitchTable) (before after : Emitter) : Prop :=
  ∃ entries items nested given,
    CasesCode trailers scope cases before.tables.length done fallback entries items nested ∧
    after.items = before.items ++ items ∧
    after.tables = outer ++ ⟨outer.length, filled ++ entries⟩ :: (inner ++ nested) ∧
    before.labels.Gives after.labels given ∧
    (SingleDefaults (Case.switchesOf cases) →
      (boundLabels items).Perm (given ++ reusedLabels fallback cases))

/-- Whether a step lays out a part of a script wherever a block is open. -/
private def AlwaysLays (step : Lower Unit) (shape : Nat → List Item → List SwitchTable → Prop)
    (switches : List (Expr × List Case)) : Prop :=
  ∀ start final, step start = .ok () final → start.emitter.blocks ≠ [] →
    Lays shape switches start.emitter final.emitter

/-- Whether a step lays out the cases of a switch wherever a block is open and the table of the
switch is known. -/
private def AlwaysLaysCases (trailers : Trailers) (scope : Scope) (step : Lower Unit) (table : Nat)
    (done : Label) (fallback : Option Label) (cases : List Case) : Prop :=
  ∀ start final, step start = .ok () final → start.emitter.blocks ≠ [] →
    ∀ outer filled inner, start.emitter.tables = outer ++ ⟨outer.length, filled⟩ :: inner →
      table = outer.length →
      LaysCases trailers scope cases done fallback outer filled inner start.emitter final.emitter

/-- A conditional with one arm lays out the shape of its tree if its arm does. -/
private theorem ifThen_lays (h : context.handlers = trailers.handlers) {test : Expr} {onTrue : Stmt}
    {span : Span} (hlays : AlwaysLays (stmt context onTrue)
      (StmtCode trailers context.scope onTrue) onTrue.switches) :
    AlwaysLays (stmt context (.ifThen test onTrue span))
      (StmtCode trailers context.scope (.ifThen test onTrue span))
      (Stmt.ifThen test onTrue span).switches := by
  intro start final hrun hopen
  rw [stmt] at hrun
  obtain ⟨_, marked, hmark, hrun⟩ := bind_eq_ok_iff.mp hrun
  obtain ⟨whenTrue, taken, htrue, hrun⟩ := bind_eq_ok_iff.mp hrun
  obtain ⟨done, ready, hdone, hrun⟩ := bind_eq_ok_iff.mp hrun
  obtain ⟨_, tested, htest, hrun⟩ := bind_eq_ok_iff.mp hrun
  obtain ⟨_, opened, hbind, hrun⟩ := bind_eq_ok_iff.mp hrun
  obtain ⟨_, armed, harm, hrun⟩ := bind_eq_ok_iff.mp hrun
  obtain ⟨_, left, hleave, hclose⟩ := bind_eq_ok_iff.mp hrun
  obtain ⟨mark, hmark, hmarked⟩ := markLine_adds hmark hopen
  have hready := hmarked.trans ((takeLabel_adds htrue).trans (takeLabel_adds hdone))
  obtain ⟨testItems, testGiven, htestCode, htested, htestPerm⟩ :=
    condition_adds h htest (hready.isOpen hopen)
  have hopened := hready.trans (htested.trans (bindLabel_adds hbind))
  obtain ⟨arm, tables, armGiven, harmCode, harmed, harmPerm⟩ :=
    hlays _ _ harm (hopened.isOpen hopen)
  have hleft := emit_adds hleave ((hopened.trans harmed).isOpen hopen)
  have hfinal := hopened.trans (harmed.trans (hleft.trans (bindLabel_adds hclose)))
  rw [hopened.length_tables] at harmCode
  refine ⟨_, _, _, .ifThen hmark htestCode harmCode, by simpa using hfinal, fun hsingle => ?_⟩
  refine List.perm_iff_count.mpr fun label => ?_
  have htestCount := htestPerm.count_eq label
  have harmCount := (harmPerm hsingle).count_eq label
  simp only [boundLabels_append, boundLabels_map_code, boundLabels_bind_cons,
    boundLabels_code_cons, boundLabels_nil, List.count_append, List.count_cons, List.count_nil]
  omega

/-- A conditional with two arms lays out the shape of its tree if both arms do. -/
private theorem ifElse_lays (h : context.handlers = trailers.handlers) {test : Expr}
    {onTrue onFalse : Stmt} {span : Span} (hlays : AlwaysLays (stmt context onTrue)
      (StmtCode trailers context.scope onTrue) onTrue.switches)
    (hlays' : AlwaysLays (stmt context onFalse) (StmtCode trailers context.scope onFalse)
      onFalse.switches) :
    AlwaysLays (stmt context (.ifElse test onTrue onFalse span))
      (StmtCode trailers context.scope (.ifElse test onTrue onFalse span))
      (Stmt.ifElse test onTrue onFalse span).switches := by
  intro start final hrun hopen
  rw [stmt] at hrun
  obtain ⟨_, marked, hmark, hrun⟩ := bind_eq_ok_iff.mp hrun
  obtain ⟨whenTrue, takenTrue, htrue, hrun⟩ := bind_eq_ok_iff.mp hrun
  obtain ⟨whenFalse, takenFalse, hfalse, hrun⟩ := bind_eq_ok_iff.mp hrun
  obtain ⟨done, ready, hdone, hrun⟩ := bind_eq_ok_iff.mp hrun
  obtain ⟨_, tested, htest, hrun⟩ := bind_eq_ok_iff.mp hrun
  obtain ⟨_, opened, hbind, hrun⟩ := bind_eq_ok_iff.mp hrun
  obtain ⟨_, armed, hfirst, hrun⟩ := bind_eq_ok_iff.mp hrun
  obtain ⟨_, left, hleave, hrun⟩ := bind_eq_ok_iff.mp hrun
  obtain ⟨_, reopened, hbind', hrun⟩ := bind_eq_ok_iff.mp hrun
  obtain ⟨_, armed', hsecond, hrun⟩ := bind_eq_ok_iff.mp hrun
  obtain ⟨_, left', hleave', hclose⟩ := bind_eq_ok_iff.mp hrun
  obtain ⟨mark, hmark, hmarked⟩ := markLine_adds hmark hopen
  have hready := hmarked.trans ((takeLabel_adds htrue).trans
    ((takeLabel_adds hfalse).trans (takeLabel_adds hdone)))
  obtain ⟨testItems, testGiven, htestCode, htested, htestPerm⟩ :=
    condition_adds h htest (hready.isOpen hopen)
  have hopened := hready.trans (htested.trans (bindLabel_adds hbind))
  obtain ⟨first, firstTables, firstGiven, hfirstCode, hfirstAdds, hfirstPerm⟩ :=
    hlays _ _ hfirst (hopened.isOpen hopen)
  have hleft := emit_adds hleave ((hopened.trans hfirstAdds).isOpen hopen)
  have hreopened := hopened.trans (hfirstAdds.trans (hleft.trans (bindLabel_adds hbind')))
  obtain ⟨second, secondTables, secondGiven, hsecondCode, hsecondAdds, hsecondPerm⟩ :=
    hlays' _ _ hsecond (hreopened.isOpen hopen)
  have hleft' := emit_adds hleave' ((hreopened.trans hsecondAdds).isOpen hopen)
  have hfinal := hreopened.trans (hsecondAdds.trans (hleft'.trans (bindLabel_adds hclose)))
  rw [hopened.length_tables] at hfirstCode
  rw [hreopened.length_tables] at hsecondCode
  refine ⟨_, _, _, .ifElse hmark htestCode hfirstCode (by simpa using hsecondCode),
    by simpa using hfinal, fun hsingle => ?_⟩
  refine List.perm_iff_count.mpr fun label => ?_
  have htestCount := htestPerm.count_eq label
  have hfirstCount := (hfirstPerm hsingle.left).count_eq label
  have hsecondCount := (hsecondPerm hsingle.right).count_eq label
  simp only [boundLabels_append, boundLabels_map_code, boundLabels_bind_cons,
    boundLabels_code_cons, boundLabels_nil, List.count_append, List.count_cons, List.count_nil]
  omega

/-- A loop lays out the shape of its tree if its body does. -/
private theorem whileLoop_lays (h : context.handlers = trailers.handlers) {test : Expr}
    {body : Stmt} {span : Span} (hlays : AlwaysLays (stmt context body)
      (StmtCode trailers context.scope body) body.switches) :
    AlwaysLays (stmt context (.whileLoop test body span))
      (StmtCode trailers context.scope (.whileLoop test body span))
      (Stmt.whileLoop test body span).switches := by
  intro start final hrun hopen
  rw [stmt] at hrun
  obtain ⟨_, marked, hmark, hrun⟩ := bind_eq_ok_iff.mp hrun
  obtain ⟨again, takenStart, hagain, hrun⟩ := bind_eq_ok_iff.mp hrun
  obtain ⟨inside, takenBody, hinside, hrun⟩ := bind_eq_ok_iff.mp hrun
  obtain ⟨done, ready, hdone, hrun⟩ := bind_eq_ok_iff.mp hrun
  obtain ⟨_, opened, hbind, hrun⟩ := bind_eq_ok_iff.mp hrun
  obtain ⟨_, tested, htest, hrun⟩ := bind_eq_ok_iff.mp hrun
  obtain ⟨_, entered, hbind', hrun⟩ := bind_eq_ok_iff.mp hrun
  obtain ⟨_, ran, hbody, hrun⟩ := bind_eq_ok_iff.mp hrun
  obtain ⟨_, left, hleave, hclose⟩ := bind_eq_ok_iff.mp hrun
  obtain ⟨mark, hmark, hmarked⟩ := markLine_adds hmark hopen
  have hopened := hmarked.trans ((takeLabel_adds hagain).trans ((takeLabel_adds hinside).trans
    ((takeLabel_adds hdone).trans (bindLabel_adds hbind))))
  obtain ⟨testItems, testGiven, htestCode, htested, htestPerm⟩ :=
    condition_adds h htest (hopened.isOpen hopen)
  have hentered := hopened.trans (htested.trans (bindLabel_adds hbind'))
  obtain ⟨bodyItems, tables, bodyGiven, hbodyCode, hbodyAdds, hbodyPerm⟩ :=
    hlays _ _ hbody (hentered.isOpen hopen)
  have hleft := emit_adds hleave ((hentered.trans hbodyAdds).isOpen hopen)
  have hfinal := hentered.trans (hbodyAdds.trans (hleft.trans (bindLabel_adds hclose)))
  rw [hentered.length_tables] at hbodyCode
  refine ⟨_, _, _, .whileLoop hmark htestCode hbodyCode, by simpa using hfinal,
    fun hsingle => ?_⟩
  refine List.perm_iff_count.mpr fun label => ?_
  have htestCount := htestPerm.count_eq label
  have hbodyCount := (hbodyPerm hsingle).count_eq label
  simp only [boundLabels_append, boundLabels_map_code, boundLabels_bind_cons,
    boundLabels_code_cons, boundLabels_nil, List.count_append, List.count_cons, List.count_nil]
  omega

/-- A switch lays out the shape of its tree if its cases do. -/
private theorem switch_lays (h : context.handlers = trailers.handlers) {ty : Ty} {subject : Expr}
    {cases : List Case} {span : Span} (hlays : ∀ table done fallback,
      AlwaysLaysCases trailers context.scope (switchCases context table done fallback cases) table
        done fallback cases) :
    AlwaysLays (stmt context (.switch ty subject cases span))
      (StmtCode trailers context.scope (.switch ty subject cases span))
      (Stmt.switch ty subject cases span).switches := by
  intro start final hrun hopen
  rw [stmt_switch] at hrun
  obtain ⟨_, marked, hmark, hrun⟩ := bind_eq_ok_iff.mp hrun
  obtain ⟨table, numbered, htable, hrun⟩ := bind_eq_ok_iff.mp hrun
  obtain ⟨done, taken, hdone, hrun⟩ := bind_eq_ok_iff.mp hrun
  obtain ⟨fallback, ready, hset, hrun⟩ := bind_eq_ok_iff.mp hrun
  obtain ⟨_, pushed, hsubject, hrun⟩ := bind_eq_ok_iff.mp hrun
  obtain ⟨_, chosen, hchoose, hrun⟩ := bind_eq_ok_iff.mp hrun
  obtain ⟨_, skipped, hskip, hrun⟩ := bind_eq_ok_iff.mp hrun
  obtain ⟨_, armed, hcases, hclose⟩ := bind_eq_ok_iff.mp hrun
  obtain ⟨mark, hmark, hmarked⟩ := markLine_adds hmark hopen
  obtain ⟨rfl, hnumbered⟩ := takeTable_adds htable
  obtain ⟨hready, hfallback, hreused⟩ := setAside_adds hset
  have hready := hmarked.trans (hnumbered.trans ((takeLabel_adds hdone).trans hready))
  obtain ⟨code, hcode, hpushed⟩ := (expr_emits h .value subject).adds hsubject
    (hready.isOpen hopen)
  have hpushed := hready.trans hpushed
  have hchosen := hpushed.trans (emit_adds hchoose (hpushed.isOpen hopen))
  have hskipped := hchosen.trans (skip_adds hskip (hchosen.isOpen hopen))
  have htables : skipped.emitter.tables = start.emitter.tables ++
      ⟨start.emitter.tables.length, []⟩ :: [] := by
    simpa [hmarked.length_tables] using hskipped.tables_eq
  obtain ⟨entries, items, nested, given, hcasesCode, hitems, hafter, hgives, hperm⟩ :=
    hlays _ _ _ _ _ hcases (hskipped.isOpen hopen) _ _ _ htables hmarked.length_tables
  have hclosed := bindLabel_adds hclose
  have hlength : marked.emitter.tables.length = start.emitter.tables.length :=
    hmarked.length_tables
  rw [hskipped.length_tables] at hcasesCode
  refine ⟨_, _, _, .switch hmark hcode hfallback hcasesCode,
    ⟨?_, ?_, hskipped.gives.append (hgives.append hclosed.gives)⟩, fun hsingle => ?_⟩
  · rw [hclosed.items_eq, hitems, hskipped.items_eq, hlength]
    simp
  · rw [hclosed.tables_eq, hafter]
    simp
  · rw [Stmt.switches] at hsingle
    have hcasesPerm := hperm fun switch hswitch => hsingle switch (List.mem_cons_of_mem _ hswitch)
    rw [hreused (hsingle (subject, cases) List.mem_cons_self)] at hcasesPerm
    refine List.perm_iff_count.mpr fun label => ?_
    have hcasesCount := hcasesPerm.count_eq label
    simp only [boundLabels_append, boundLabels_map_code, boundLabels_bind_cons,
      boundLabels_nil, List.count_append, List.count_cons, List.count_nil] at hcasesCount ⊢
    omega

/-- A case lays out the shape of its tree before those of the cases after it. -/
private theorem case_lays {keys : List Expr} {isDefault : Bool} {body : List Stmt} {span : Span}
    {rest : List Case} {table : Nat} {done : Label} {fallback : Option Label}
    (hlays : AlwaysLays (stmts context body) (StmtsCode trailers context.scope body)
      (Stmt.switchesOf body))
    (hlaysRest : AlwaysLaysCases trailers context.scope
      (switchCases context table done fallback rest) table done fallback rest) :
    AlwaysLaysCases trailers context.scope
      (switchCases context table done fallback (.mk keys isDefault body span :: rest)) table done
      fallback (.mk keys isDefault body span :: rest) := by
  intro start final hrun hopen outer filled inner htables htable
  rw [switchCases] at hrun
  obtain ⟨label, labelled, hlabel, hrun⟩ := bind_eq_ok_iff.mp hrun
  obtain ⟨constants, folded, hkeys, hrun⟩ := bind_eq_ok_iff.mp hrun
  obtain ⟨_, entered, hentry, hrun⟩ := bind_eq_ok_iff.mp hrun
  obtain ⟨_, opened, hbind, hrun⟩ := bind_eq_ok_iff.mp hrun
  obtain ⟨_, ran, hbody, hrun⟩ := bind_eq_ok_iff.mp hrun
  obtain ⟨_, left, hleave, hrest⟩ := bind_eq_ok_iff.mp hrun
  obtain ⟨given, hlabelled, hset, hgiven⟩ := caseLabel_adds hlabel
  obtain ⟨hconstants, rfl⟩ := ofExcept_eq_ok_iff.mp hkeys
  have hentered := addCase_emitter hentry
    ((hlabelled.tables_eq.trans (List.append_nil _)).trans htables) htable
  have hopened := bindLabel_adds hbind
  rw [hentered] at hopened
  have hready : folded.emitter.blocks ≠ [] := hlabelled.isOpen hopen
  obtain ⟨bodyItems, bodyTables, bodyGiven, hbodyCode, hbodyAdds, hbodyPerm⟩ :=
    hlays _ _ hbody (hopened.isOpen hready)
  have hran := hopened.trans hbodyAdds
  have hleft := hran.trans (emit_adds hleave (hran.isOpen hready))
  have hleftTables : left.emitter.tables = outer ++
      ⟨outer.length, filled ++ [⟨constants, label⟩]⟩ :: (inner ++ bodyTables) := by
    simpa using hleft.tables_eq
  obtain ⟨entries, restItems, restTables, restGiven, hrestCode, hitems, hafter, hgives,
      hrestPerm⟩ := hlaysRest _ _ hrest (hleft.isOpen hready) _ _ _ hleftTables htable
  have hbase : opened.emitter.tables.length = start.emitter.tables.length := by
    simpa [htables] using hopened.length_tables
  have hrestBase : left.emitter.tables.length =
      start.emitter.tables.length + bodyTables.length := by
    rw [hleftTables, htables]
    simp
    omega
  rw [hbase] at hbodyCode
  rw [hrestBase] at hrestCode
  refine ⟨_, _, _, _, .cons hset hconstants hbodyCode hrestCode, ?_, ?_,
    hlabelled.gives.append (hleft.gives.append hgives), fun hsingle => ?_⟩
  · rw [hitems, hleft.items_eq]
    change folded.emitter.items ++ _ ++ _ = _
    rw [hlabelled.items_eq]
    simp
  · rw [hafter]
    simp
  · rw [Case.switchesOf] at hsingle
    have hbodyPerm := hbodyPerm hsingle.left
    have hrestPerm := hrestPerm hsingle.right
    refine List.perm_iff_count.mpr fun other => ?_
    have hlabelCount := congrArg (List.count other) hgiven
    have hbodyCount := hbodyPerm.count_eq other
    have hrestCount := hrestPerm.count_eq other
    rw [reusedLabels]
    simp only [boundLabels_append, boundLabels_bind_cons, boundLabels_code_cons,
      List.count_append, List.count_cons, List.count_nil] at *
    omega

mutual

/-- A statement lays out the shape of its tree. -/
private theorem stmt_lays (h : context.handlers = trailers.handlers) : ∀ s : Stmt,
    AlwaysLays (stmt context s) (StmtCode trailers context.scope s) s.switches
  | .block body span => by
    intro start final hrun hopen
    rw [stmt] at hrun
    obtain ⟨items, tables, given, hcode, hadds⟩ := stmts_lays h body _ _ hrun hopen
    exact ⟨items, tables, given, .block hcode, hadds⟩
  | .ifThen _ onTrue _ => ifThen_lays h (stmt_lays h onTrue)
  | .ifElse _ onTrue onFalse _ => ifElse_lays h (stmt_lays h onTrue) (stmt_lays h onFalse)
  | .whileLoop _ body _ => whileLoop_lays h (stmt_lays h body)
  | .switch _ _ cases _ => switch_lays h fun table done fallback =>
    switchCases_lays h table done fallback cases
  | .leave .. | .assign .. | .declare .. | .declareArray .. | .evaluate .. | .empty .. =>
    fun _ _ hrun hopen => straight_lays h rfl hrun hopen

/-- Statements lay out the shapes of their trees in order. -/
private theorem stmts_lays (h : context.handlers = trailers.handlers) : ∀ body : List Stmt,
    AlwaysLays (stmts context body) (StmtsCode trailers context.scope body) (Stmt.switchesOf body)
  | [] => by
    intro start final hrun hopen
    rw [stmts] at hrun
    cases hrun
    exact ⟨[], [], [], .nil, .refl _, fun _ => .nil⟩
  | first :: rest => by
    intro start final hrun hopen
    rw [stmts] at hrun
    obtain ⟨_, middle, hfirst, hrest⟩ := bind_eq_ok_iff.mp hrun
    obtain ⟨_, _, _, hfirstCode, hfirstAdds, hfirstPerm⟩ := stmt_lays h first _ _ hfirst hopen
    obtain ⟨_, _, _, hrestCode, hrestAdds, hrestPerm⟩ :=
      stmts_lays h rest _ _ hrest (hfirstAdds.isOpen hopen)
    rw [hfirstAdds.length_tables] at hrestCode
    refine ⟨_, _, _, .cons hfirstCode hrestCode, hfirstAdds.trans hrestAdds, fun hsingle => ?_⟩
    rw [Stmt.switchesOf] at hsingle
    rw [boundLabels_append]
    exact (hfirstPerm hsingle.left).append (hrestPerm hsingle.right)

/-- The cases of a switch lay out the shapes of their trees in order and fill the table. -/
private theorem switchCases_lays (h : context.handlers = trailers.handlers) (table : Nat)
    (done : Label) (fallback : Option Label) : ∀ cases : List Case,
    AlwaysLaysCases trailers context.scope (switchCases context table done fallback cases) table
      done fallback cases
  | [] => by
    intro start final hrun hopen outer filled inner htables htable
    rw [switchCases] at hrun
    cases hrun
    exact ⟨[], [], [], [], .nil, (List.append_nil _).symm, by simpa using htables, .refl _,
      fun _ => .nil⟩
  | .mk _ _ body _ :: rest => case_lays (stmts_lays h body)
    (switchCases_lays h table done fallback rest)

end

end Lower

namespace Generator

variable {generator : Generator} {decl : ScriptDecl} {script : CompiledScript} {trailers : Trailers}

/-- A declaration that can be compiled has a script. -/
theorem exists_script_of_isOk (h : (generator.script decl).1.isOk = true) :
    ∃ script, (generator.script decl).1 = .ok script := by
  cases hrun : (generator.script decl).1 with
  | ok script => exact ⟨script, rfl⟩
  | error error =>
    rw [hrun] at h
    cases h

/-- A compiled script is its entry, the shape of its body, and a return of default values. No label
is bound twice if no switch has two default cases. -/
theorem script_lays (h : generator.handlers = trailers.handlers)
    (hrun : (generator.script decl).1 = .ok script) :
    ∃ items code, StmtsCode trailers generator.scope decl.body 0 items script.tables ∧
      defaultLeaveCode decl.symbol.returns decl.span = .ok code ∧
      script.items = .bind .entry :: (items ++ code.map .code) ∧
      (SingleDefaults (Stmt.switchesOf decl.body) → (boundLabels script.items).Nodup) := by
  obtain ⟨final, hbody, rfl⟩ := exists_final_of_script hrun
  have hhandlers : (generator.context decl.symbol).handlers = trailers.handlers := h
  have hopen : generator.emitter.start.blocks ≠ [] := List.cons_ne_nil _ _
  obtain ⟨_, middle, hstmts, hleave⟩ := Lower.bind_eq_ok_iff.mp hbody
  obtain ⟨items, tables, given, hcode, hadds, hperm⟩ :=
    Lower.stmts_lays hhandlers decl.body _ _ hstmts hopen
  obtain ⟨code, hdefault, hleft⟩ :=
    (Lower.defaultLeave_emits _ _).adds hleave (hadds.isOpen hopen)
  have hfinal := hadds.trans hleft
  have htables : final.emitter.tables = tables := by
    simpa [Generator.start, Emitter.start, Emitter.bind] using hfinal.tables_eq
  have hitems : final.emitter.items = .bind .entry :: (items ++ code.map .code) :=
    hfinal.items_eq
  refine ⟨items, code, htables ▸ hcode, hdefault, hitems, fun hsingle => ?_⟩
  change (boundLabels final.emitter.items).Nodup
  rw [hitems, boundLabels_bind_cons, boundLabels_append, boundLabels_map_code, List.append_nil,
    List.nodup_cons, (hperm hsingle).mem_iff, (hperm hsingle).nodup_iff]
  exact ⟨fun hentry => LabelSupply.not_issued_entry _ (hadds.gives.issued _ hentry),
    hadds.gives.nodup⟩

end Generator

end ScriptBackend

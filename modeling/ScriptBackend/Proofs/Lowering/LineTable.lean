import ScriptBackend.Proofs.Lowering.Pieces

/-!
# The line table

Lowering marks the line of each statement but a block when the statement begins, unless the line is
unknown or was marked last; nothing else adds a marker. So what is laid out for a script falls into
pieces that begin the statements of its body in order, outer ones before those nested in them, and
are marked by one tracker from the first piece to the last. The line table of the script, and the
marker that each instruction stands under, can be read off the pieces.
-/

namespace ScriptBackend

variable {trailers : Trailers}

namespace Emitter

/-- The instructions laid out so far. -/
def instructions (emitter : Emitter) : List Instruction := emitter.blocks.flatMap Block.instructions

/-- Between two states of the emitter some code was laid out and no line was marked. -/
structure Extends (before after : Emitter) (code : List Instruction) : Prop where
  /-- The code was added after all other. -/
  code_eq : after.instructions = before.instructions ++ code
  /-- The tracker is as it was. -/
  lines_eq : after.lines = before.lines

/-- Between two states of the emitter some statements were begun in order, and their lines were
marked where needed: what was laid out falls into pieces that say so. -/
def Begins (trailers : Trailers) (before after : Emitter) (statements : List Stmt) : Prop :=
  ∃ pieces : List (Piece trailers), pieces.filterMap Piece.stmt? = statements ∧
    after.instructions = before.instructions ++ pieces.flatMap Piece.instructions ∧
    Marked before.lines pieces after.lines

/-- Marking a line lays out the marker that the tracker gives. -/
theorem instructions_markLine (emitter : Emitter) (span : Span) :
    (emitter.markLine span).instructions =
      emitter.instructions ++ (emitter.lines.marker? span).toList := by
  unfold markLine
  cases emitter.lines.marker? span with
  | none => exact (List.append_nil _).symm
  | some marker => exact flatMap_appendInstruction marker emitter.blocks

/-- Marking a line marks it in the tracker. -/
theorem lines_markLine (emitter : Emitter) (span : Span) :
    (emitter.markLine span).lines = emitter.lines.mark span := by
  unfold markLine
  obtain ⟨-, hmarker, hmark⟩ | ⟨-, hmarker, hmark⟩ := emitter.lines.mark_cases span
  · rw [hmarker]
  · rw [hmarker, hmark]

variable {before middle after : Emitter}

namespace Extends

variable {first second code : List Instruction}

/-- Nothing is laid out where no block changes. -/
theorem of_blocks_eq (hblocks : after.blocks = before.blocks)
    (hlines : after.lines = before.lines) : before.Extends after [] :=
  ⟨by rw [instructions, hblocks, List.append_nil, instructions], hlines⟩

/-- What is laid out first stands before what is laid out next. -/
theorem trans (hfirst : before.Extends middle first) (hsecond : middle.Extends after second) :
    before.Extends after (first ++ second) :=
  ⟨by rw [hsecond.code_eq, hfirst.code_eq, List.append_assoc],
    hsecond.lines_eq.trans hfirst.lines_eq⟩

/-- Code without markers that begins no statement closes a part. -/
theorem closing (h : before.Extends after code) (hreal : IsUnmarked code) :
    before.Begins trailers after [] := by
  refine ⟨[.closing code hreal], rfl, ?_, .closing (h.lines_eq ▸ .nil _)⟩
  rw [h.code_eq, List.flatMap_singleton]
  rfl

end Extends

/-- What begins first stands before what begins next. -/
theorem Begins.append {first second : List Stmt} (hfirst : before.Begins trailers middle first)
    (hsecond : middle.Begins trailers after second) :
    before.Begins trailers after (first ++ second) := by
  obtain ⟨pieces, rfl, hcode, hmarked⟩ := hfirst
  obtain ⟨others, rfl, hcode', hmarked'⟩ := hsecond
  refine ⟨pieces ++ others, List.filterMap_append, ?_, hmarked.append hmarked'⟩
  rw [hcode', hcode, List.flatMap_append, List.append_assoc]

end Emitter

namespace Lower

variable {context : Context} {start final : LowerState}

/-- Emitted instructions are laid out last. -/
theorem emitAll_extends (emitter : Emitter) (code : List Instruction) :
    emitter.Extends (emitter.emitAll code) code := by
  induction code generalizing emitter with
  | nil => exact .of_blocks_eq rfl rfl
  | cons first rest ih =>
    have hfirst : emitter.Extends (emitter.emit first) [first] :=
      ⟨flatMap_appendInstruction first emitter.blocks, rfl⟩
    exact hfirst.trans (ih _)

/-- A step that emits code lays it out. -/
theorem Emits.extends {step : Lower Unit} {outcome : StraightCode}
    {slots : LocalTable → LocalTable} (h : Emits step outcome slots)
    (hrun : step start = .ok () final) :
    ∃ code, outcome = .ok code ∧ start.emitter.Extends final.emitter code := by
  obtain ⟨code, hcode, rfl⟩ := h.eq_ok_iff.mp hrun
  exact ⟨code, hcode, emitAll_extends _ code⟩

/-- An emitted instruction is laid out last. -/
theorem emit_extends {instruction : Instruction} (hrun : emit instruction start = .ok () final) :
    start.emitter.Extends final.emitter [instruction] := by
  cases hrun
  exact emitAll_extends _ [instruction]

/-- A bound label opens a block without code. -/
theorem bindLabel_extends {label : Label} (hrun : bindLabel label start = .ok () final) :
    start.emitter.Extends final.emitter [] := by
  cases hrun
  exact ⟨by simp [Emitter.instructions, Emitter.bind], rfl⟩

/-- Taking a label lays out nothing. -/
theorem takeLabel_extends {base : String} {label : Label}
    (hrun : takeLabel base start = .ok label final) :
    start.emitter.Extends final.emitter [] := by
  cases hrun
  exact .of_blocks_eq rfl rfl

/-- The operands of a connective lay out their code one after the other. -/
private theorem operands_extend {next : Label} {first second : List Item}
    {taken tried bound : LowerState} {base : String} (htake : takeLabel base start = .ok next taken)
    (hfirst : taken.emitter.Extends tried.emitter (codeOf first))
    (hbind : bindLabel next tried = .ok () bound)
    (hsecond : bound.emitter.Extends final.emitter (codeOf second)) :
    start.emitter.Extends final.emitter (codeOf (first ++ .bind next :: second)) := by
  simpa using (takeLabel_extends htake).trans
    (hfirst.trans ((bindLabel_extends hbind).trans hsecond))

/-- The lowering of a condition lays out its code and marks no line. -/
theorem condition_extends (h : context.handlers = trailers.handlers) {e : Expr}
    {onTrue onFalse : Label} (hrun : condition context e onTrue onFalse start = .ok () final) :
    ∃ items, TestCode trailers e onTrue onFalse items ∧
      start.emitter.Extends final.emitter (codeOf items) := by
  induction e, onTrue, onFalse using condition.induct generalizing start final with
  | case1 left right span onTrue onFalse ihleft ihright =>
    rw [condition] at hrun
    obtain ⟨next, taken, htake, hrun⟩ := bind_eq_ok_iff.mp hrun
    obtain ⟨_, tried, hleft, hrun⟩ := bind_eq_ok_iff.mp hrun
    obtain ⟨_, bound, hbind, hright⟩ := bind_eq_ok_iff.mp hrun
    obtain ⟨first, hfirst, hextends⟩ := ihleft _ hleft
    obtain ⟨second, hsecond, hextends'⟩ := ihright hright
    exact ⟨_, .both hfirst hsecond, operands_extend htake hextends hbind hextends'⟩
  | case2 left right span onTrue onFalse ihleft ihright =>
    rw [condition] at hrun
    obtain ⟨next, taken, htake, hrun⟩ := bind_eq_ok_iff.mp hrun
    obtain ⟨_, tried, hleft, hrun⟩ := bind_eq_ok_iff.mp hrun
    obtain ⟨_, bound, hbind, hright⟩ := bind_eq_ok_iff.mp hrun
    obtain ⟨first, hfirst, hextends⟩ := ihleft _ hleft
    obtain ⟨second, hsecond, hextends'⟩ := ihright hright
    exact ⟨_, .either hfirst hsecond, operands_extend htake hextends hbind hextends'⟩
  | case3 left comparison right span onTrue onFalse =>
    rw [condition] at hrun
    have hemits := (expr_emits h .value left).bind ((expr_emits h .value right).bind
      ((emits_emitResult (comparisonBranch comparison left.ty onTrue span)).bind
        (emits_emit (branchAlways onFalse span))))
    obtain ⟨code, hcode, hextends⟩ := hemits.extends hrun
    obtain ⟨first, _, hleft, hrest, rfl⟩ := StraightCode.append_eq_ok_iff.mp hcode
    obtain ⟨second, _, hright, hbranches, rfl⟩ := StraightCode.append_eq_ok_iff.mp hrest
    obtain ⟨_, _, hsingle, ⟨⟩, rfl⟩ := StraightCode.append_eq_ok_iff.mp hbranches
    obtain ⟨branch, hbranch, rfl⟩ := StraightCode.single_eq_ok_iff.mp hsingle
    exact ⟨_, .compare hleft hright hbranch, by simpa using hextends⟩
  | case4 inner span onTrue onFalse ih =>
    rw [condition] at hrun
    obtain ⟨items, hitems, hextends⟩ := ih hrun
    exact ⟨items, .paren hitems, hextends⟩
  | case5 e onTrue onFalse =>
    rw [condition] at hrun
    · cases hrun
    all_goals assumption

/-- A statement begins when its line is marked and it is lowered up to the first statement nested in
it. -/
theorem begins_of_markLine (s : Stmt) {marked : LowerState} {after : Emitter}
    {code : List Instruction} (hmark : markLine s.span start = .ok () marked)
    (hcode : marked.emitter.Extends after code) (hopens : s.Opens trailers code) :
    start.emitter.Begins trailers after [s] := by
  cases hmark
  refine ⟨[.opening s _ code (start.emitter.lines.isMark_marker? s.span) hopens], rfl, ?_,
    .opening ?_⟩
  · rw [hcode.code_eq, Emitter.instructions_markLine, List.append_assoc, List.flatMap_singleton]
    rfl
  · rw [hcode.lines_eq, Emitter.lines_markLine]
    exact .nil _

/-- Whether a step, where it succeeds, begins some statements in order. -/
def AlwaysBegins (trailers : Trailers) (step : Lower Unit) (statements : List Stmt) : Prop :=
  ∀ start final, step start = .ok () final →
    start.emitter.Begins trailers final.emitter statements

/-- A statement without control flow begins and is done. -/
private theorem straight_begins (h : context.handlers = trailers.handlers) {s : Stmt}
    {outcome : StraightCode} (hcode : s.straight? trailers = some outcome) :
    AlwaysBegins trailers (stmt context s) [s] := by
  intro start final hrun
  obtain ⟨step, hstmt, hstep⟩ := stmt_eq_of_straight? h hcode
  rw [hstmt] at hrun
  obtain ⟨_, marked, hmark, hrun⟩ := bind_eq_ok_iff.mp hrun
  obtain ⟨code, rfl, hextends⟩ := hstep.extends hrun
  exact begins_of_markLine s hmark hextends (.straight hcode)

/-- A part of a statement ends in a branch, and a label is bound after it. -/
private theorem branch_begins {label next : Label} {span : Span} {left : LowerState}
    (hleave : emit (branchAlways label span) start = .ok () left)
    (hbind : bindLabel next left = .ok () final) :
    start.emitter.Begins trailers final.emitter [] :=
  ((emit_extends hleave).trans (bindLabel_extends hbind)).closing
    (List.forall_mem_singleton.mpr rfl)

/-- A conditional with one arm begins, and then its arm. -/
private theorem ifThen_begins (h : context.handlers = trailers.handlers) {test : Expr}
    {onTrue : Stmt} {span : Span}
    (harm : AlwaysBegins trailers (stmt context onTrue) onTrue.inOrder) :
    AlwaysBegins trailers (stmt context (.ifThen test onTrue span))
      (Stmt.ifThen test onTrue span).inOrder := by
  intro start final hrun
  rw [stmt] at hrun
  obtain ⟨_, marked, hmark, hrun⟩ := bind_eq_ok_iff.mp hrun
  obtain ⟨whenTrue, taken, htrue, hrun⟩ := bind_eq_ok_iff.mp hrun
  obtain ⟨done, ready, hdone, hrun⟩ := bind_eq_ok_iff.mp hrun
  obtain ⟨_, tested, htest, hrun⟩ := bind_eq_ok_iff.mp hrun
  obtain ⟨_, entered, hbind, hrun⟩ := bind_eq_ok_iff.mp hrun
  obtain ⟨_, ran, hrunArm, hrun⟩ := bind_eq_ok_iff.mp hrun
  obtain ⟨_, left, hleave, hclose⟩ := bind_eq_ok_iff.mp hrun
  obtain ⟨items, hitems, htested⟩ := condition_extends h htest
  have hextends := (takeLabel_extends htrue).trans ((takeLabel_extends hdone).trans
    (htested.trans (bindLabel_extends hbind)))
  rw [List.append_nil] at hextends
  have hopened := begins_of_markLine (.ifThen test onTrue span) hmark hextends (.ifThen hitems)
  simpa [Stmt.inOrder] using hopened.append
    ((harm _ _ hrunArm).append (branch_begins hleave hclose))

/-- A conditional with two arms begins, and then its arms. -/
private theorem ifElse_begins (h : context.handlers = trailers.handlers) {test : Expr}
    {onTrue onFalse : Stmt} {span : Span}
    (hfirst : AlwaysBegins trailers (stmt context onTrue) onTrue.inOrder)
    (hsecond : AlwaysBegins trailers (stmt context onFalse) onFalse.inOrder) :
    AlwaysBegins trailers (stmt context (.ifElse test onTrue onFalse span))
      (Stmt.ifElse test onTrue onFalse span).inOrder := by
  intro start final hrun
  rw [stmt] at hrun
  obtain ⟨_, marked, hmark, hrun⟩ := bind_eq_ok_iff.mp hrun
  obtain ⟨whenTrue, taken, htrue, hrun⟩ := bind_eq_ok_iff.mp hrun
  obtain ⟨whenFalse, taken', hfalse, hrun⟩ := bind_eq_ok_iff.mp hrun
  obtain ⟨done, ready, hdone, hrun⟩ := bind_eq_ok_iff.mp hrun
  obtain ⟨_, tested, htest, hrun⟩ := bind_eq_ok_iff.mp hrun
  obtain ⟨_, entered, hbind, hrun⟩ := bind_eq_ok_iff.mp hrun
  obtain ⟨_, ran, hrunFirst, hrun⟩ := bind_eq_ok_iff.mp hrun
  obtain ⟨_, left, hleave, hrun⟩ := bind_eq_ok_iff.mp hrun
  obtain ⟨_, entered', hbind', hrun⟩ := bind_eq_ok_iff.mp hrun
  obtain ⟨_, ran', hrunSecond, hrun⟩ := bind_eq_ok_iff.mp hrun
  obtain ⟨_, left', hleave', hclose⟩ := bind_eq_ok_iff.mp hrun
  obtain ⟨items, hitems, htested⟩ := condition_extends h htest
  have hextends := (takeLabel_extends htrue).trans ((takeLabel_extends hfalse).trans
    ((takeLabel_extends hdone).trans (htested.trans (bindLabel_extends hbind))))
  rw [List.append_nil] at hextends
  have hopened := begins_of_markLine (.ifElse test onTrue onFalse span) hmark hextends
    (.ifElse hitems)
  simpa [Stmt.inOrder] using hopened.append
    (((hfirst _ _ hrunFirst).append (branch_begins hleave hbind')).append
      ((hsecond _ _ hrunSecond).append (branch_begins hleave' hclose)))

/-- A loop begins, and then its body. -/
private theorem whileLoop_begins (h : context.handlers = trailers.handlers) {test : Expr}
    {body : Stmt} {span : Span}
    (hbody : AlwaysBegins trailers (stmt context body) body.inOrder) :
    AlwaysBegins trailers (stmt context (.whileLoop test body span))
      (Stmt.whileLoop test body span).inOrder := by
  intro start final hrun
  rw [stmt] at hrun
  obtain ⟨_, marked, hmark, hrun⟩ := bind_eq_ok_iff.mp hrun
  obtain ⟨again, taken, hagain, hrun⟩ := bind_eq_ok_iff.mp hrun
  obtain ⟨inside, taken', hinside, hrun⟩ := bind_eq_ok_iff.mp hrun
  obtain ⟨done, ready, hdone, hrun⟩ := bind_eq_ok_iff.mp hrun
  obtain ⟨_, opened, hbind, hrun⟩ := bind_eq_ok_iff.mp hrun
  obtain ⟨_, tested, htest, hrun⟩ := bind_eq_ok_iff.mp hrun
  obtain ⟨_, entered, hbind', hrun⟩ := bind_eq_ok_iff.mp hrun
  obtain ⟨_, ran, hrunBody, hrun⟩ := bind_eq_ok_iff.mp hrun
  obtain ⟨_, left, hleave, hclose⟩ := bind_eq_ok_iff.mp hrun
  obtain ⟨items, hitems, htested⟩ := condition_extends h htest
  have hextends := (takeLabel_extends hagain).trans ((takeLabel_extends hinside).trans
    ((takeLabel_extends hdone).trans ((bindLabel_extends hbind).trans
      (htested.trans (bindLabel_extends hbind')))))
  rw [List.append_nil] at hextends
  have hopened := begins_of_markLine (.whileLoop test body span) hmark hextends
    (.whileLoop hitems)
  simpa [Stmt.inOrder] using hopened.append
    ((hbody _ _ hrunBody).append (branch_begins hleave hclose))

/-- Taking the number of a table lays out nothing. -/
private theorem takeTable_extends {table : Nat} (hrun : takeTable start = .ok table final) :
    start.emitter.Extends final.emitter [] := by
  cases hrun
  exact .of_blocks_eq rfl rfl

/-- Setting a label aside lays out nothing. -/
private theorem setAside_extends {cases : List Case} {fallback : Option Label}
    (hrun : setAside cases start = .ok fallback final) :
    start.emitter.Extends final.emitter [] := by
  unfold setAside at hrun
  split at hrun
  · cases hrun
    exact .of_blocks_eq rfl rfl
  · cases hrun
    exact .of_blocks_eq rfl rfl

/-- Passing the cases of a switch lays out at most a branch. -/
private theorem skip_extends {cases : List Case} {done : Label} {fallback : Option Label}
    {span : Span} (hrun : skip cases done fallback span start = .ok () final) :
    start.emitter.Extends final.emitter (skipCode cases done fallback span) := by
  unfold skip at hrun
  unfold skipCode
  split at hrun
  · next hfirst =>
    cases hrun
    rw [if_pos hfirst]
    exact .of_blocks_eq rfl rfl
  · next hfirst =>
    rw [if_neg hfirst]
    exact emit_extends hrun

/-- A switch begins, and then the statements of its cases. -/
private theorem switch_begins (h : context.handlers = trailers.handlers) {ty : Ty} {subject : Expr}
    {cases : List Case} {span : Span} (hcases : ∀ table done fallback, AlwaysBegins trailers
      (switchCases context table done fallback cases) (Case.inOrderOf cases)) :
    AlwaysBegins trailers (stmt context (.switch ty subject cases span))
      (Stmt.switch ty subject cases span).inOrder := by
  intro start final hrun
  rw [stmt_switch] at hrun
  obtain ⟨_, marked, hmark, hrun⟩ := bind_eq_ok_iff.mp hrun
  obtain ⟨table, numbered, htable, hrun⟩ := bind_eq_ok_iff.mp hrun
  obtain ⟨done, taken, hdone, hrun⟩ := bind_eq_ok_iff.mp hrun
  obtain ⟨fallback, ready, hset, hrun⟩ := bind_eq_ok_iff.mp hrun
  obtain ⟨_, pushed, hsubject, hrun⟩ := bind_eq_ok_iff.mp hrun
  obtain ⟨_, chosen, hchoose, hrun⟩ := bind_eq_ok_iff.mp hrun
  obtain ⟨_, skipped, hskip, hrun⟩ := bind_eq_ok_iff.mp hrun
  obtain ⟨_, armed, hrunCases, hclose⟩ := bind_eq_ok_iff.mp hrun
  obtain ⟨code, hcode, hpushed⟩ := (expr_emits h .value subject).extends hsubject
  have hready := (takeTable_extends htable).trans ((takeLabel_extends hdone).trans
    (setAside_extends hset))
  have hextends := hready.trans (hpushed.trans ((emit_extends hchoose).trans (skip_extends hskip)))
  simp only [List.nil_append, List.singleton_append] at hextends
  have hopened := begins_of_markLine (.switch ty subject cases span) hmark hextends (.switch hcode)
  have hclosed : armed.emitter.Begins trailers final.emitter [] :=
    (bindLabel_extends hclose).closing (List.forall_mem_nil _)
  simpa [Stmt.inOrder] using hopened.append ((hcases _ _ _ _ _ hrunCases).append hclosed)

/-- Taking the label of a case lays out nothing. -/
private theorem caseLabel_extends {fallback : Option Label} {isDefault : Bool} {label : Label}
    (hrun : caseLabel fallback isDefault start = .ok label final) :
    start.emitter.Extends final.emitter [] := by
  unfold caseLabel at hrun
  split at hrun
  · cases hrun
    exact .of_blocks_eq rfl rfl
  · exact takeLabel_extends hrun

/-- Entering a case in the table lays out nothing. -/
private theorem enterCase_extends {outcome : Except LoweringError (List Constant)}
    {constants : List Constant} {table : Nat} {case : TableCase} {folded : LowerState}
    (hkeys : ofExcept outcome start = .ok constants folded)
    (hentry : addCase table case folded = .ok () final) :
    start.emitter.Extends final.emitter [] := by
  cases outcome with
  | ok value =>
    cases hkeys
    cases hentry
    exact .of_blocks_eq rfl rfl
  | error error => cases hkeys

mutual

/-- The lowering of a statement begins the statement and those in it, outer ones first. -/
theorem stmt_begins (h : context.handlers = trailers.handlers) :
    ∀ s : Stmt, AlwaysBegins trailers (stmt context s) s.inOrder
  | .block body _ => by
    rw [stmt, Stmt.inOrder]
    exact stmts_begins h body
  | .ifThen _ onTrue _ => ifThen_begins h (stmt_begins h onTrue)
  | .ifElse _ onTrue onFalse _ => ifElse_begins h (stmt_begins h onTrue) (stmt_begins h onFalse)
  | .whileLoop _ body _ => whileLoop_begins h (stmt_begins h body)
  | .switch _ _ cases _ => switch_begins h fun table done fallback =>
    switchCases_begins h table done fallback cases
  | .leave .. | .assign .. | .declare .. | .declareArray .. | .evaluate .. | .empty .. => by
    rw [Stmt.inOrder]
    exact straight_begins h rfl

/-- The lowering of statements begins them in order. -/
theorem stmts_begins (h : context.handlers = trailers.handlers) :
    ∀ body : List Stmt, AlwaysBegins trailers (stmts context body) (Stmt.inOrderOf body)
  | [] => by
    intro start final hrun
    rw [stmts] at hrun
    cases hrun
    exact ⟨[], rfl, (List.append_nil _).symm, .nil _⟩
  | first :: rest => by
    intro start final hrun
    rw [stmts] at hrun
    obtain ⟨_, middle, hfirst, hrest⟩ := bind_eq_ok_iff.mp hrun
    rw [Stmt.inOrderOf]
    exact (stmt_begins h first _ _ hfirst).append (stmts_begins h rest _ _ hrest)

/-- The lowering of the cases of a switch begins their statements in order. -/
theorem switchCases_begins (h : context.handlers = trailers.handlers) (table : Nat) (done : Label)
    (fallback : Option Label) : ∀ cases : List Case,
      AlwaysBegins trailers (switchCases context table done fallback cases) (Case.inOrderOf cases)
  | [] => by
    intro start final hrun
    rw [switchCases] at hrun
    cases hrun
    exact ⟨[], rfl, (List.append_nil _).symm, .nil _⟩
  | .mk keys isDefault body span :: rest => by
    intro start final hrun
    rw [switchCases] at hrun
    obtain ⟨label, labelled, hlabel, hrun⟩ := bind_eq_ok_iff.mp hrun
    obtain ⟨constants, folded, hkeys, hrun⟩ := bind_eq_ok_iff.mp hrun
    obtain ⟨_, entered, hentry, hrun⟩ := bind_eq_ok_iff.mp hrun
    obtain ⟨_, opened, hbind, hrun⟩ := bind_eq_ok_iff.mp hrun
    obtain ⟨_, ran, hbody, hrun⟩ := bind_eq_ok_iff.mp hrun
    obtain ⟨_, left, hleave, hrest⟩ := bind_eq_ok_iff.mp hrun
    have hopened : start.emitter.Begins trailers opened.emitter [] :=
      ((caseLabel_extends hlabel).trans ((enterCase_extends hkeys hentry).trans
        (bindLabel_extends hbind))).closing (List.forall_mem_nil _)
    have hleft : ran.emitter.Begins trailers left.emitter [] :=
      (emit_extends hleave).closing (List.forall_mem_singleton.mpr rfl)
    rw [Case.inOrderOf]
    exact hopened.append ((stmts_begins h body _ _ hbody).append
      (hleft.append (switchCases_begins h table done fallback rest _ _ hrest)))

end

end Lower

namespace Generator

variable {generator : Generator} {decl : ScriptDecl} {script : CompiledScript}

/-- The code of a compiled script falls into pieces that begin the statements of its body in order,
marked by a tracker that has marked nothing yet. -/
theorem exists_pieces (h : generator.handlers = trailers.handlers)
    (hrun : (generator.script decl).1 = .ok script) :
    ∃ (pieces : List (Piece trailers)) (final : LineTracker),
      pieces.filterMap Piece.stmt? = Stmt.inOrderOf decl.body ∧
      script.instructions = pieces.flatMap Piece.instructions ∧
      Marked ⟨generator.emitter.lines.enabled, none⟩ pieces final := by
  obtain ⟨state, hbody, rfl⟩ := exists_final_of_script hrun
  have hhandlers : (generator.context decl.symbol).handlers = trailers.handlers := h
  obtain ⟨_, middle, hstmts, hleave⟩ := Lower.bind_eq_ok_iff.mp hbody
  obtain ⟨code, hcode, hextends⟩ := (Lower.defaultLeave_emits _ _).extends hleave
  have hreal := (isPlain_defaultLeaveCode _ _).isUnmarked hcode
  have hbegins := (Lower.stmts_begins hhandlers decl.body _ _ hstmts).append
    (hextends.closing hreal)
  rw [List.append_nil] at hbegins
  obtain ⟨pieces, hpieces, hinstructions, hmarked⟩ := hbegins
  exact ⟨pieces, _, hpieces, hinstructions, hmarked⟩

/-- The line table of a compiled script lists the known lines of the statements of its body, outer
ones before those nested in them, each run of one line once. The code that a statement on a known
line is lowered to, up to the first statement nested in it, has that line as the last marker before
it, and so has all code that follows up to the beginning of another statement. -/
theorem script_lineTable (hhandlers : generator.handlers.AreTrailers)
    (henabled : generator.emitter.lines.enabled = true)
    (hrun : (generator.script decl).1 = .ok script) :
    lineTable script.instructions =
      ((((Stmt.inOrderOf decl.body).map fun s => s.span.line).filter (· ≠ 0)).destutter
        (· ≠ ·)).map .line ∧
    ∃ (trailers : Trailers) (pieces : List (Piece trailers)),
      generator.handlers = trailers.handlers ∧
      pieces.filterMap Piece.stmt? = Stmt.inOrderOf decl.body ∧
      script.instructions = pieces.flatMap Piece.instructions ∧
      ∀ (before following after : List (Piece trailers)) (s : Stmt)
        (marker code : List Instruction) (hmark : IsMark s.span marker)
        (hopens : s.Opens trailers code),
        pieces = before ++ .opening s marker code hmark hopens :: (following ++ after) →
        following.filterMap Piece.stmt? = [] → s.span.isKnown = true →
        ∀ first, first <+: code ++ following.flatMap Piece.instructions →
          (lineTable (before.flatMap Piece.instructions ++ (marker ++ first))).getLast? =
            some (.line s.span.line) := by
  obtain ⟨trailers, htrailers⟩ := hhandlers.exists_trailers
  obtain ⟨pieces, final, hpieces, hcode, hmarked⟩ := exists_pieces htrailers hrun
  refine ⟨?_, trailers, pieces, htrailers, hpieces, hcode, ?_⟩
  · rw [hcode, ← hpieces]
    exact hmarked.lineTable_eq henabled
  · rintro before following after s marker code hmark hopens rfl hfollowing hknown first hfirst
    exact hmarked.getLast?_lineTable henabled hknown hfollowing hfirst

/-- A generator with a trailer for what is said. -/
private def sayLines : Generator := { handlers := ⟨[("say", .argumentTrailer 0)]⟩ }

/-- A script with statements on one line, on no known line, and on a line again after another. -/
private def scatteredLines : ScriptDecl :=
  let one : Expr := .literal (.int 1) .int none .unknown
  let test : Expr := .condition one (.compare .equals) one .unknown
  let say : Expr :=
    .call ⟨.command, "say", false, .unit, some (.command ⟨"say", [], []⟩), .unknown⟩ [one]
  let choice : Stmt := .switch .int one [.mk [one] false [] .unknown,
    .mk [] false [.leave [] ⟨4, 5⟩] .unknown, .mk [] true [.empty ⟨3, 9⟩] .unknown] ⟨3, 5⟩
  ⟨⟨.proc, "scatter", [], []⟩, [],
    [.empty ⟨1, 1⟩, .evaluate say .unknown, .evaluate say ⟨1, 9⟩,
      .ifElse test (.block [.whileLoop test choice ⟨2, 7⟩] ⟨9, 1⟩) (.evaluate say ⟨4, 9⟩) ⟨2, 1⟩,
      .empty ⟨2, 9⟩], .unknown⟩

theorem script_lineTable_scatteredLines :
    ∃ (script : CompiledScript) (trailers : Trailers) (pieces : List (Piece trailers)),
      (sayLines.script scatteredLines).1 = .ok script ∧
      lineTable script.instructions =
        [.line 1, .line 2, .line 3, .line 4, .line 3, .line 4, .line 2] ∧
      pieces.filterMap Piece.stmt? = Stmt.inOrderOf scatteredLines.body ∧
      script.instructions = pieces.flatMap Piece.instructions ∧
      ∀ (before after : List (Piece trailers)) (s : Stmt) (marker code : List Instruction)
        (hmark : IsMark s.span marker) (hopens : s.Opens trailers code),
        pieces = before ++ .opening s marker code hmark hopens :: after → s.span.isKnown = true →
          (lineTable (before.flatMap Piece.instructions ++ (marker ++ code))).getLast? =
            some (.line s.span.line) := by
  obtain ⟨script, hscript⟩ := exists_script_of_isOk
    (show (sayLines.script scatteredLines).1.isOk = true by decide +kernel)
  have hhandlers : sayLines.handlers.AreTrailers := by simp [Handlers.AreTrailers, sayLines]
  obtain ⟨htable, trailers, pieces, -, hpieces, hcode, hlast⟩ :=
    script_lineTable hhandlers rfl hscript
  refine ⟨script, trailers, pieces, hscript, ?_, hpieces, hcode, ?_⟩
  · rw [htable]
    decide +kernel
  · intro before after s marker code hmark hopens hsplit hknown
    exact hlast before [] after s marker code hmark hopens hsplit rfl hknown code
      (List.prefix_append code _)

end Generator

end ScriptBackend

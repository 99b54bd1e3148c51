import Mathlib.Data.List.Destutter
import ScriptBackend.Proofs.Lowering.Laws

/-!
# Pieces of code and their lines

The code of a script falls into pieces. A piece opens a statement: its marker, if it has one, and
its code up to the first statement nested in it. What stands between such pieces closes a part of a
statement or the whole script, and has no markers.

Pieces are marked by a tracker that is told of each statement as it begins. Two facts follow,
whatever the pieces are. Their line table lists the lines of their statements, without unknown
lines and with runs of one line collapsed. And all code from the beginning of a statement on a known
line to the beginning of the next statement has that line as the last marker before it.
-/

namespace ScriptBackend

mutual

/-- A statement and the statements in it, outer ones first; blocks are left out. -/
def Stmt.inOrder : Stmt → List Stmt
  | .block body _ => Stmt.inOrderOf body
  | s@(.ifThen _ onTrue _) => s :: onTrue.inOrder
  | s@(.ifElse _ onTrue onFalse _) => s :: (onTrue.inOrder ++ onFalse.inOrder)
  | s@(.whileLoop _ body _) => s :: body.inOrder
  | s@(.switch _ _ cases _) => s :: Case.inOrderOf cases
  | s@(.leave ..) | s@(.assign ..) | s@(.declare ..) | s@(.declareArray ..) | s@(.evaluate ..)
  | s@(.empty ..) => [s]

/-- Statements and the statements in them, in order. -/
def Stmt.inOrderOf : List Stmt → List Stmt
  | [] => []
  | first :: rest => first.inOrder ++ Stmt.inOrderOf rest

/-- The statements in the cases of a switch, in order. -/
def Case.inOrderOf : List Case → List Stmt
  | [] => []
  | .mk _ _ body _ :: rest => Stmt.inOrderOf body ++ Case.inOrderOf rest

end

/-- The operands of the line markers among instructions, in order. -/
def lineTable (code : List Instruction) : List Operand :=
  (code.filter fun instruction => instruction.opcode.isMarker).map Instruction.operand

@[simp] theorem lineTable_append (first second : List Instruction) :
    lineTable (first ++ second) = lineTable first ++ lineTable second := by
  simp [lineTable]

/-- Whether no instruction is a line marker. -/
def IsUnmarked (code : List Instruction) : Prop :=
  ∀ instruction ∈ code, instruction.opcode.isMarker = false

/-- Code without markers adds nothing to the line table. -/
theorem IsUnmarked.lineTable_eq_nil {code : List Instruction} (h : IsUnmarked code) :
    lineTable code = [] := by
  rw [lineTable, List.filter_eq_nil_iff.mpr fun instruction hmem => by simp [h instruction hmem]]
  rfl

theorem IsUnmarked.append {first second : List Instruction} (hfirst : IsUnmarked first)
    (hsecond : IsUnmarked second) : IsUnmarked (first ++ second) := by
  intro instruction hmem
  exact (List.mem_append.mp hmem).elim (hfirst instruction) (hsecond instruction)

/-- Plain code has no markers. -/
theorem StraightCode.IsPlain.isUnmarked {outcome : StraightCode} (h : outcome.IsPlain)
    {code : List Instruction} (hcode : outcome = .ok code) : IsUnmarked code :=
  fun instruction hmem => (h code hcode instruction hmem).isMarker_eq_false

variable {trailers : Trailers}

/-- The code of a condition has no markers. -/
theorem TestCode.isUnmarked {e : Expr} {onTrue onFalse : Label} {items : List Item}
    (h : TestCode trailers e onTrue onFalse items) : IsUnmarked (codeOf items) := by
  induction h with
  | both _ _ ihleft ihright | either _ _ ihleft ihright =>
    rw [codeOf_append, codeOf_bind_cons]
    exact ihleft.append ihright
  | compare hleft hright hbranch =>
    rw [codeOf_map_code]
    refine (((Expr.isPlain_code trailers .value _).isUnmarked hleft).append
      ((Expr.isPlain_code trailers .value _).isUnmarked hright)).append ?_
    intro instruction hmem
    rcases List.mem_pair.mp hmem with rfl | rfl
    · exact isMarker_eq_false_of_comparisonBranch hbranch
    · rfl
  | paren _ ih => exact ih

/-- Whether code is what a statement is lowered to up to the first statement nested in it, apart
from its line marker. -/
inductive Stmt.Opens (trailers : Trailers) : Stmt → List Instruction → Prop where
  /-- Nothing is nested in a statement without control flow. -/
  | straight {s : Stmt} {code : List Instruction} (hcode : s.straight? trailers = some (.ok code)) :
      Opens trailers s code
  | ifThen {test : Expr} {onTrue : Stmt} {span : Span} {whenTrue done : Label} {items : List Item}
      (htest : TestCode trailers test whenTrue done items) :
      Opens trailers (.ifThen test onTrue span) (codeOf items)
  | ifElse {test : Expr} {onTrue onFalse : Stmt} {span : Span} {whenTrue whenFalse : Label}
      {items : List Item} (htest : TestCode trailers test whenTrue whenFalse items) :
      Opens trailers (.ifElse test onTrue onFalse span) (codeOf items)
  | whileLoop {test : Expr} {body : Stmt} {span : Span} {inside done : Label} {items : List Item}
      (htest : TestCode trailers test inside done items) :
      Opens trailers (.whileLoop test body span) (codeOf items)
  /-- The subject is pushed and a case is chosen. -/
  | switch {ty : Ty} {subject : Expr} {cases : List Case} {span : Span} {code : List Instruction}
      {table : Nat} {done : Label} {fallback : Option Label}
      (hsubject : subject.code trailers .value = .ok code) :
      Opens trailers (.switch ty subject cases span)
        (code ++ switchOn table span :: skipCode cases done fallback span)

/-- No code that opens a statement has a marker. -/
theorem Stmt.Opens.isUnmarked {s : Stmt} {code : List Instruction} (h : s.Opens trailers code) :
    IsUnmarked code := by
  cases h with
  | straight hcode => exact (Stmt.isPlain_straight? trailers hcode).isUnmarked rfl
  | ifThen htest | ifElse htest | whileLoop htest => exact htest.isUnmarked
  | @switch ty subject cases span code table done fallback hsubject =>
    refine ((Expr.isPlain_code trailers .value subject).isUnmarked hsubject).append ?_
    have hskip : ∀ instruction ∈ skipCode cases done fallback span,
        instruction.opcode.isMarker = false := by
      unfold skipCode
      split
      · simp
      · exact List.forall_mem_singleton.mpr rfl
    exact List.forall_mem_cons.mpr ⟨rfl, hskip⟩

/-- A run of the code of a script. -/
inductive Piece (trailers : Trailers) where
  /-- A statement begins, with its marker or without one. -/
  | opening (s : Stmt) (marker code : List Instruction) (hmark : IsMark s.span marker)
      (hopens : s.Opens trailers code)
  /-- A part of a statement or the script ends. -/
  | closing (code : List Instruction) (hreal : IsUnmarked code)

namespace Piece

/-- The instructions of a piece. -/
def instructions : Piece trailers → List Instruction
  | .opening _ marker code _ _ => marker ++ code
  | .closing code _ => code

/-- The statement that begins with a piece. -/
def stmt? : Piece trailers → Option Stmt
  | .opening s _ _ _ _ => some s
  | .closing _ _ => none

/-- No marker stands in pieces that begin no statement. -/
theorem isUnmarked_of_stmt?_eq_none {pieces : List (Piece trailers)}
    (h : pieces.filterMap stmt? = []) : IsUnmarked (pieces.flatMap instructions) := by
  intro instruction hmem
  obtain ⟨piece, hpiece, hmem⟩ := List.mem_flatMap.mp hmem
  cases piece with
  | opening s marker code hmark hopens => cases List.filterMap_eq_nil_iff.mp h _ hpiece
  | closing code hreal => exact hreal instruction hmem

end Piece

namespace LineTracker

variable (tracker : LineTracker) (span : Span)

/-- A position is marked if its line is new, and nothing happens otherwise. -/
theorem mark_cases :
    (tracker.isNewLine span = true ∧ tracker.marker? span = some (lineMarker span) ∧
      tracker.mark span = { tracker with last := some span.line }) ∨
    (tracker.isNewLine span = false ∧ tracker.marker? span = none ∧
      tracker.mark span = tracker) := by
  unfold marker? mark
  cases tracker.isNewLine span with
  | true => exact .inl ⟨rfl, rfl, rfl⟩
  | false => exact .inr ⟨rfl, rfl, rfl⟩

/-- What a tracker puts in front of a statement. -/
theorem isMark_marker? : IsMark span (tracker.marker? span).toList := by
  obtain ⟨-, hmarker, -⟩ | ⟨-, hmarker, -⟩ := tracker.mark_cases span
  · exact .inr (by rw [hmarker]; rfl)
  · exact .inl (by rw [hmarker]; rfl)

/-- Marking never turns a tracker off. -/
theorem enabled_mark : (tracker.mark span).enabled = tracker.enabled := by
  obtain ⟨-, -, hmark⟩ | ⟨-, -, hmark⟩ := tracker.mark_cases span <;> rw [hmark]

variable {tracker span}

/-- A line that is known but not new was marked last. -/
theorem last_of_isNewLine_eq_false (henabled : tracker.enabled = true)
    (hknown : span.isKnown = true) (h : tracker.isNewLine span = false) :
    tracker.last = some span.line := by
  simpa [isNewLine, henabled, hknown] using h

/-- A known line was marked last once a tracker was told of it. -/
theorem last_mark (henabled : tracker.enabled = true) (hknown : span.isKnown = true) :
    (tracker.mark span).last = some span.line := by
  obtain ⟨-, -, hmark⟩ | ⟨hold, -, hmark⟩ := tracker.mark_cases span
  · rw [hmark]
  · rw [hmark, last_of_isNewLine_eq_false henabled hknown hold]

end LineTracker

/-- A line other than the last one is kept. -/
theorem destutter_of_last_ne {last : Option Nat} {line : Nat} (h : last ≠ some line)
    (lines : List Nat) :
    (last.toList ++ line :: lines).destutter (· ≠ ·) =
      last.toList ++ (line :: lines).destutter (· ≠ ·) := by
  cases last with
  | none => rfl
  | some other =>
    have hne : other ≠ line := fun heq => h (congrArg some heq)
    exact if_pos hne

/-- The last line is not repeated. -/
theorem destutter_of_last_eq (line : Nat) (lines : List Nat) :
    ((some line).toList ++ line :: lines).destutter (· ≠ ·) =
      (line :: lines).destutter (· ≠ ·) :=
  if_neg (not_not.mpr rfl)

/-- Whether pieces are marked as a tracker in one state does it, which leaves it in another
state. -/
inductive Marked : LineTracker → List (Piece trailers) → LineTracker → Prop where
  | nil (tracker : LineTracker) : Marked tracker [] tracker
  | opening {tracker final : LineTracker} {s : Stmt} {code : List Instruction}
      {hopens : s.Opens trailers code} {rest : List (Piece trailers)}
      (hrest : Marked (tracker.mark s.span) rest final) :
      Marked tracker (.opening s _ code (tracker.isMark_marker? s.span) hopens :: rest) final
  | closing {tracker final : LineTracker} {code : List Instruction} {hreal : IsUnmarked code}
      {rest : List (Piece trailers)} (hrest : Marked tracker rest final) :
      Marked tracker (.closing code hreal :: rest) final

namespace Marked

variable {tracker middle final : LineTracker} {first second pieces : List (Piece trailers)}

/-- Pieces after pieces are marked from where the first leave the tracker. -/
theorem append (hfirst : Marked tracker first middle) (hsecond : Marked middle second final) :
    Marked tracker (first ++ second) final := by
  induction hfirst with
  | nil => exact hsecond
  | opening _ ih => exact .opening (ih hsecond)
  | closing _ ih => exact .closing (ih hsecond)

/-- The parts of what is marked are marked. -/
theorem exists_of_append (h : Marked tracker (first ++ second) final) :
    ∃ middle, Marked tracker first middle ∧ Marked middle second final := by
  induction first generalizing tracker with
  | nil => exact ⟨tracker, .nil tracker, h⟩
  | cons piece rest ih =>
    cases h with
    | opening hrest =>
      obtain ⟨middle, hfirst, hsecond⟩ := ih hrest
      exact ⟨middle, .opening hfirst, hsecond⟩
    | closing hrest =>
      obtain ⟨middle, hfirst, hsecond⟩ := ih hrest
      exact ⟨middle, .closing hfirst, hsecond⟩

/-- A tracker stays as enabled as it was. -/
theorem enabled_eq (h : Marked tracker pieces final) : final.enabled = tracker.enabled := by
  induction h with
  | nil => rfl
  | opening _ ih => rw [ih, LineTracker.enabled_mark]
  | closing _ ih => exact ih

/-- The line that a tracker marked last is the last in the line table. -/
theorem last_eq (h : Marked tracker pieces final) :
    final.last.map .line =
      (lineTable (pieces.flatMap Piece.instructions)).getLast?.or (tracker.last.map .line) := by
  induction h with
  | nil => rfl
  | @opening tracker final s code hopens rest _ ih =>
    rw [ih, List.flatMap_cons, Piece.instructions, lineTable_append, lineTable_append,
      hopens.isUnmarked.lineTable_eq_nil, List.append_nil, List.getLast?_append, Option.or_assoc]
    obtain ⟨-, hmarker, hmark⟩ | ⟨-, hmarker, hmark⟩ := tracker.mark_cases s.span
    · rw [hmarker, hmark]
      rfl
    · rw [hmarker, hmark]
      rfl
  | @closing tracker final code hreal rest _ ih =>
    rw [ih, List.flatMap_cons, Piece.instructions, lineTable_append, hreal.lineTable_eq_nil,
      List.nil_append]

/-- The line that was marked last, followed by the line table, lists that line and the known lines
of the statements that begin, each run of one line once. -/
theorem lineTable_eq (h : Marked tracker pieces final) (henabled : tracker.enabled = true) :
    tracker.last.toList.map .line ++ lineTable (pieces.flatMap Piece.instructions) =
      ((tracker.last.toList ++ ((pieces.filterMap Piece.stmt?).map fun s => s.span.line).filter
        (· ≠ 0)).destutter (· ≠ ·)).map .line := by
  induction h with
  | nil tracker => cases tracker.last <;> rfl
  | @opening tracker final s code hopens rest _ ih =>
    have hrest := ih ((tracker.enabled_mark s.span).trans henabled)
    rw [List.flatMap_cons, Piece.instructions, lineTable_append, lineTable_append,
      hopens.isUnmarked.lineTable_eq_nil, List.append_nil, List.filterMap_cons_some (by rfl),
      List.map_cons]
    obtain ⟨hnew, hmarker, hmark⟩ | ⟨hold, hmarker, hmark⟩ := tracker.mark_cases s.span
    · obtain ⟨⟨-, hknown⟩, hlast⟩ : (tracker.enabled = true ∧ s.span.line ≠ 0) ∧
          tracker.last ≠ some s.span.line := by
        simpa [LineTracker.isNewLine] using hnew
      rw [hmark] at hrest
      rw [hmarker, List.filter_cons_of_pos (by simpa using hknown), destutter_of_last_ne hlast,
        List.map_append]
      exact congrArg (tracker.last.toList.map Operand.line ++ ·) hrest
    · rw [hmark] at hrest
      rw [hmarker]
      by_cases hknown : s.span.line = 0
      · rw [List.filter_cons_of_neg (by simpa using hknown)]
        exact hrest
      · have hlast := LineTracker.last_of_isNewLine_eq_false henabled (by simpa using hknown) hold
        rw [hlast] at hrest ⊢
        rw [List.filter_cons_of_pos (by simpa using hknown), destutter_of_last_eq]
        exact hrest
  | @closing tracker final code hreal rest _ ih =>
    rw [List.flatMap_cons, Piece.instructions, lineTable_append, hreal.lineTable_eq_nil,
      List.nil_append]
    exact ih henabled

/-- Where nothing was marked before all pieces, the code from the beginning of a statement on a
known line to the beginning of the next has that line as the last marker before it. -/
theorem getLast?_lineTable {enabled : Bool} {before following after : List (Piece trailers)}
    {s : Stmt} {marker code first : List Instruction} {hmark : IsMark s.span marker}
    {hopens : s.Opens trailers code}
    (h : Marked ⟨enabled, none⟩
      (before ++ .opening s marker code hmark hopens :: (following ++ after)) final)
    (henabled : enabled = true) (hknown : s.span.isKnown = true)
    (hfollowing : following.filterMap Piece.stmt? = [])
    (hfirst : first <+: code ++ following.flatMap Piece.instructions) :
    (lineTable (before.flatMap Piece.instructions ++ (marker ++ first))).getLast? =
      some (.line s.span.line) := by
  obtain ⟨tracker, hbefore, hopening⟩ := h.exists_of_append
  cases hopening with
  | opening hafter =>
    have hlast := (hbefore.append (.opening (.nil _) : Marked tracker
      [.opening s _ code (tracker.isMark_marker? s.span) hopens] _)).last_eq
    rw [LineTracker.last_mark (hbefore.enabled_eq.trans henabled) hknown] at hlast
    -- no marker stands between the marker of the statement and the beginning of the next
    have hrest : IsUnmarked first := fun instruction hmem =>
      (hopens.isUnmarked.append (Piece.isUnmarked_of_stmt?_eq_none hfollowing)) instruction
        (hfirst.subset hmem)
    simp only [List.flatMap_append, List.flatMap_singleton, Piece.instructions, lineTable_append,
      hopens.isUnmarked.lineTable_eq_nil, Option.map_none, Option.or_none] at hlast
    simp only [lineTable_append, hrest.lineTable_eq_nil]
    exact hlast.symm

end Marked

end ScriptBackend

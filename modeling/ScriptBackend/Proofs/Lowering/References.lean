import ScriptBackend.Proofs.Lowering.Emission
import ScriptBackend.Proofs.Lowering.Plain

/-!
# References of emitted code

The items of a part of a script refer to labels and switch tables. Every label is bound by the part
itself or is an exit that the part was given, and the part chooses by its own tables, each once, in
the order of their numbers. Parts put one after the other keep this, and an exit that the whole
binds is no exit of the whole. So a compiled script has no exits left.
-/

namespace ScriptBackend

/-- Whether an entry of a switch table has the keys of a case. -/
def TableCase.Answers (scope : Scope) (entry : TableCase) (case : Case) : Prop :=
  case.keys.mapM (fun key => key.caseKey scope) = .ok entry.keys

/-- Whether a switch table has one entry for each case of a switch, in order. -/
def SwitchTable.Fits (scope : Scope) (table : SwitchTable) (switch : Expr × List Case) : Prop :=
  List.Forall₂ (TableCase.Answers scope) table.cases switch.2

/-- The switch tables that instructions choose by, in order. -/
def chosenTables (instructions : List Instruction) : List (Option Nat) :=
  (instructions.filter fun instruction => instruction.opcode = .switch).map Instruction.table?

@[simp] theorem chosenTables_append (first second : List Instruction) :
    chosenTables (first ++ second) = chosenTables first ++ chosenTables second := by
  simp [chosenTables]

/-- What items refer to: labels that they bind or that are their exits, and tables numbered on from
a base, which fit the switches that the items come from. -/
structure Refers (scope : Scope) (base : Nat) (items : List Item) (exits : List Label)
    (tables : List SwitchTable) (switches : List (Expr × List Case)) : Prop where
  /-- Every branch has a label that is bound or an exit. -/
  branches : ∀ instruction ∈ codeOf items, instruction.opcode.isBranch = true →
    ∃ label ∈ boundLabels items ++ exits, instruction.label? = some label
  /-- Every entry of a table has a label that is bound. -/
  entries : ∀ table ∈ tables, ∀ entry ∈ table.cases, entry.label ∈ boundLabels items
  /-- The tables are numbered in order. -/
  numbers : tables.map SwitchTable.id = List.range' base tables.length
  /-- Each table is chosen by once, in order. -/
  choices : chosenTables (codeOf items) = (List.range' base tables.length).map some
  /-- The tables fit the switches. -/
  fits : List.Forall₂ (SwitchTable.Fits scope) tables switches

namespace Refers

variable {scope : Scope} {base : Nat} {items first second : List Item}
  {exits firstExits secondExits : List Label} {tables firstTables secondTables : List SwitchTable}
  {switches firstSwitches secondSwitches : List (Expr × List Case)}

/-- Plain code and a bound label refer to nothing. -/
theorem of_forall_isPlain (h : ∀ instruction ∈ codeOf items, instruction.IsPlain) :
    Refers scope base items [] [] [] where
  branches instruction hmem hbranch := by
    rw [(h instruction hmem).isBranch_eq_false] at hbranch
    cases hbranch
  entries := by simp
  numbers := rfl
  choices := by
    have hnone : (codeOf items).filter (fun instruction => instruction.opcode = .switch) = [] := by
      simpa using fun instruction hmem => (h instruction hmem).opcode_ne_switch
    simp [chosenTables, hnone]
  fits := .nil

/-- A bound label refers to nothing. -/
theorem bind (label : Label) : Refers scope base [.bind label] [] [] [] :=
  of_forall_isPlain (by simp)

/-- Plain code refers to nothing. -/
theorem code {code : List Instruction} (h : ∀ instruction ∈ code, instruction.IsPlain) :
    Refers scope base (code.map .code) [] [] [] :=
  of_forall_isPlain (by simpa using h)

/-- A mark of a line refers to nothing. -/
theorem mark {span : Span} {mark : List Instruction} (h : IsMark span mark) :
    Refers scope base (mark.map .code) [] [] [] := by
  rcases h with rfl | rfl
  · exact code (by simp)
  · refine ⟨?_, by simp, rfl, rfl, .nil⟩
    simp [lineMarker, Opcode.isBranch]

/-- A branch has its label as exit. -/
theorem branch {instruction : Instruction} {label : Label}
    (hopcode : instruction.opcode ≠ .switch) (hlabel : instruction.label? = some label) :
    Refers scope base [.code instruction] [label] [] [] := by
  refine ⟨by simp [hlabel], by simp, rfl, ?_, .nil⟩
  simp [chosenTables, hopcode]

/-- An unconditional branch has its label as exit. -/
theorem branchAlways (label : Label) (span : Span) :
    Refers scope base [.code (branchAlways label span)] [label] [] [] :=
  branch (by simp [ScriptBackend.branchAlways, Instruction.branchTo, Instruction.atSpan]) rfl

/-- Parts in order refer to what each refers to. -/
theorem append (hfirst : Refers scope base first firstExits firstTables firstSwitches)
    (hsecond : Refers scope (base + firstTables.length) second secondExits secondTables
      secondSwitches) :
    Refers scope base (first ++ second) (firstExits ++ secondExits) (firstTables ++ secondTables)
      (firstSwitches ++ secondSwitches) where
  branches instruction hmem hbranch := by
    rw [codeOf_append, List.mem_append] at hmem
    rcases hmem with hmem | hmem
    · obtain ⟨label, hlabel, heq⟩ := hfirst.branches instruction hmem hbranch
      refine ⟨label, ?_, heq⟩
      simp only [boundLabels_append, List.mem_append] at hlabel ⊢
      tauto
    · obtain ⟨label, hlabel, heq⟩ := hsecond.branches instruction hmem hbranch
      refine ⟨label, ?_, heq⟩
      simp only [boundLabels_append, List.mem_append] at hlabel ⊢
      tauto
  entries table htable entry hentry := by
    rw [boundLabels_append, List.mem_append]
    rcases List.mem_append.mp htable with htable | htable
    · exact .inl (hfirst.entries table htable entry hentry)
    · exact .inr (hsecond.entries table htable entry hentry)
  numbers := by
    rw [List.map_append, hfirst.numbers, hsecond.numbers, List.length_append,
      ← List.range'_append_1]
  choices := by
    rw [codeOf_append, chosenTables_append, hfirst.choices, hsecond.choices, List.length_append,
      ← List.range'_append_1, List.map_append]
  fits := List.rel_append hfirst.fits hsecond.fits

/-- An exit that is bound is no exit. -/
theorem close (h : Refers scope base items exits tables switches) (left : List Label)
    (hexits : ∀ label ∈ exits, label ∈ boundLabels items ++ left) :
    Refers scope base items left tables switches where
  branches instruction hmem hbranch := by
    obtain ⟨label, hlabel, heq⟩ := h.branches instruction hmem hbranch
    refine ⟨label, ?_, heq⟩
    rcases List.mem_append.mp hlabel with hbound | hexit
    · exact List.mem_append_left left hbound
    · exact hexits label hexit
  entries := h.entries
  numbers := h.numbers
  choices := h.choices
  fits := h.fits

/-- A `switch` in front of its cases chooses by the first table. -/
theorem choose (subject : Expr) (span : Span) {cases : List Case} {entries : List TableCase}
    (h : Refers scope (base + 1) items exits tables switches)
    (hentries : ∀ entry ∈ entries, entry.label ∈ boundLabels items)
    (hanswers : List.Forall₂ (TableCase.Answers scope) entries cases) :
    Refers scope base (.code (switchOn base span) :: items) exits (⟨base, entries⟩ :: tables)
      ((subject, cases) :: switches) where
  branches := by
    simpa [switchOn, Opcode.isBranch] using h.branches
  entries := by
    simpa using ⟨hentries, h.entries⟩
  numbers := by
    rw [List.map_cons, h.numbers, List.length_cons, List.range'_succ]
  choices := by
    rw [codeOf_code_cons, List.length_cons, List.range'_succ, List.map_cons, ← h.choices]
    simp [chosenTables, switchOn, Instruction.table?]
  fits := .cons hanswers h.fits

end Refers

variable {trailers : Trailers} {scope : Scope} {base : Nat} {items : List Item}
  {tables : List SwitchTable}

/-- A comparison is a conditional branch to its label. -/
theorem exists_opcode_of_comparisonBranch {comparison : Comparison} {ty : Ty} {label : Label}
    {span : Span} {branch : Instruction}
    (h : comparisonBranch comparison ty label span = .ok branch) :
    ∃ opcode, ty.stackType?.bind comparison.branch? = some opcode ∧
      opcode.isConditional = true ∧ branch = (Instruction.branchTo opcode label).atSpan span := by
  unfold comparisonBranch at h
  split at h
  · next opcode hopcode =>
    cases h
    obtain ⟨stack, -, hbranch⟩ := Option.bind_eq_some_iff.mp hopcode
    exact ⟨opcode, hopcode, Comparison.isConditional_of_branch? hbranch, rfl⟩
  · cases h

/-- A condition leaves by its two exits. -/
theorem TestCode.refers {e : Expr} {onTrue onFalse : Label}
    (h : TestCode trailers e onTrue onFalse items) :
    Refers scope base items [onTrue, onFalse] [] [] := by
  induction h with
  | both hleft hright ihleft ihright =>
    refine (ihleft.append ((Refers.bind _).append ihright)).close _ ?_
    simp
  | either hleft hright ihleft ihright =>
    refine (ihleft.append ((Refers.bind _).append ihright)).close _ ?_
    simp
  | @compare left right comparison span onTrue onFalse first second branch hleft hright hbranch =>
    obtain ⟨opcode, -, hconditional, rfl⟩ := exists_opcode_of_comparisonBranch hbranch
    have hswitch : opcode ≠ .switch := by
      rintro rfl
      cases hconditional
    have hoperands := (Expr.isPlain_code trailers .value left).append
      (Expr.isPlain_code trailers .value right) (first ++ second)
      (StraightCode.append_eq_ok_iff.mpr ⟨first, second, hleft, hright, rfl⟩)
    rw [List.map_append]
    exact (Refers.code hoperands).append
      ((Refers.branch hswitch rfl).append (Refers.branchAlways onFalse span))
  | paren hinner ih => exact ih

/-- The label of a default case is bound. -/
private theorem CasesCode.mem_boundLabels {cases : List Case} {done set : Label}
    {entries : List TableCase}
    (h : CasesCode trailers scope cases base done (some set) entries items tables)
    (hdefault : cases.any Case.isDefault = true) : set ∈ boundLabels items := by
  induction cases generalizing base entries items tables with
  | nil => cases hdefault
  | cons case rest ih =>
    cases h with
    | cons hlabel hkeys hbody hrest =>
      rw [List.any_cons, Bool.or_eq_true] at hdefault
      rcases hdefault with hfirst | hrestDefault
      · simp [hlabel set rfl hfirst]
      · simp [ih hrest hrestDefault]

/-- The entries of a switch table answer its cases, and their labels are bound. -/
theorem CasesCode.entries {cases : List Case} {done : Label} {fallback : Option Label}
    {entries : List TableCase}
    (h : CasesCode trailers scope cases base done fallback entries items tables) :
    (∀ entry ∈ entries, entry.label ∈ boundLabels items) ∧
      List.Forall₂ (TableCase.Answers scope) entries cases := by
  induction cases generalizing base entries items tables with
  | nil =>
    cases h
    exact ⟨by simp, .nil⟩
  | cons case rest ih =>
    cases h with
    | cons hlabel hkeys hbody hrest =>
      obtain ⟨hbound, hanswers⟩ := ih hrest
      refine ⟨?_, .cons hkeys hanswers⟩
      rw [List.forall_mem_cons]
      exact ⟨by simp, fun entry hentry => by simp [hbound entry hentry]⟩

/-- The branch after a `switch` leaves for the end or is bound as the default case. -/
private theorem skipCode_refers (cases : List Case) (done : Label) (fallback : Option Label)
    (span : Span) :
    Refers scope base ((skipCode cases done fallback span).map .code) (done :: fallback.toList)
      [] [] := by
  unfold skipCode
  split
  · exact (Refers.code (by simp)).close _ (by simp)
  · refine (Refers.branchAlways (fallback.getD done) span).close _ ?_
    cases fallback <;> simp

mutual

/-- A statement has no exits. -/
theorem StmtCode.refers : ∀ {s : Stmt} {base : Nat} {items : List Item}
    {tables : List SwitchTable}, StmtCode trailers scope s base items tables →
    Refers scope base items [] tables s.switches
  | s, base, _, _, .straight hmark hcode => by
    have hswitches : s.switches = [] := by
      cases s <;> first | rfl | cases hcode
    have hplain := Stmt.isPlain_straight? trailers hcode _ rfl
    rw [hswitches, List.map_append]
    exact (Refers.mark hmark).append (Refers.code hplain)
  | _, _, _, _, .block hbody => by
    rw [Stmt.switches]
    exact hbody.refers
  | _, _, _, _, @StmtCode.ifThen _ _ _ _ span _ _ whenTrue done _ _ _ hmark htest harm => by
    rw [Stmt.switches]
    have hparts := (Refers.mark hmark).append (htest.refers.append ((Refers.bind whenTrue).append
      (harm.refers.append ((Refers.branchAlways done span).append (Refers.bind done)))))
    simpa using hparts.close [] (by simp)
  | _, _, _, _, @StmtCode.ifElse _ _ _ _ _ span _ _ whenTrue whenFalse done _ _ _ _ _ hmark htest
      hfirst hsecond => by
    rw [Stmt.switches]
    have hparts := (Refers.mark hmark).append (htest.refers.append ((Refers.bind whenTrue).append
      (hfirst.refers.append ((Refers.branchAlways done span).append ((Refers.bind whenFalse).append
        (hsecond.refers.append ((Refers.branchAlways done span).append (Refers.bind done))))))))
    simpa using hparts.close [] (by simp)
  | _, _, _, _, @StmtCode.whileLoop _ _ _ _ span _ _ start inside done _ _ _ hmark htest hbody => by
    rw [Stmt.switches]
    have hparts := (Refers.mark hmark).append ((Refers.bind start).append (htest.refers.append
      ((Refers.bind inside).append (hbody.refers.append ((Refers.branchAlways start span).append
        (Refers.bind done))))))
    simpa using hparts.close [] (by simp)
  | _, _, _, _, @StmtCode.switch _ _ _ subject cases span base _ _ done fallback entries caseItems _
      hmark hsubject hfallback hcases => by
    rw [Stmt.switches]
    obtain ⟨hbound, hanswers⟩ := hcases.entries
    have hrest := (skipCode_refers cases done fallback span).append
      (hcases.refers.append (Refers.bind done))
    have hexits : ∀ label ∈ done :: fallback.toList ++ ([done] ++ []), label ∈
        boundLabels ((skipCode cases done fallback span).map .code ++
          (caseItems ++ [.bind done])) ++ [] := by
      cases fallback with
      | none => simp
      | some set => simp [hcases.mem_boundLabels hfallback.symm]
    have hchoose := (hrest.close [] hexits).choose subject span
      (fun entry hentry => by simp [hbound entry hentry]) hanswers
    have hparts := (Refers.mark hmark).append
      ((Refers.code (Expr.isPlain_code trailers .value _ _ hsubject)).append hchoose)
    simpa using hparts

/-- Statements have no exits. -/
theorem StmtsCode.refers : ∀ {body : List Stmt} {base : Nat} {items : List Item}
    {tables : List SwitchTable}, StmtsCode trailers scope body base items tables →
    Refers scope base items [] tables (Stmt.switchesOf body)
  | _, _, _, _, .nil => .of_forall_isPlain (by simp)
  | _, _, _, _, .cons hfirst hrest => by
    rw [Stmt.switchesOf]
    exact hfirst.refers.append hrest.refers

/-- The cases of a switch leave for its end. -/
theorem CasesCode.refers : ∀ {cases : List Case} {base : Nat} {done : Label}
    {fallback : Option Label} {entries : List TableCase} {items : List Item}
    {tables : List SwitchTable},
    CasesCode trailers scope cases base done fallback entries items tables →
    Refers scope base items [done] tables (Case.switchesOf cases)
  | _, _, _, _, _, _, _, .nil => (Refers.of_forall_isPlain (by simp)).close _ (by simp)
  | _, _, _, _, _, _, _, @CasesCode.cons _ _ _ _ _ span _ _ done label _ _ _ _ _ _ _ hlabel hkeys
      hbody hrest => by
    rw [Case.switchesOf]
    have hparts := (Refers.bind label).append (hbody.refers.append
      ((Refers.branchAlways done span).append hrest.refers))
    exact hparts.close [done] (by simp)

end

end ScriptBackend

import ScriptBackend.Generator
import ScriptBackend.Proofs.Emitter.Items
import ScriptBackend.Proofs.Lowering.Straight

/-!
# The shape of lowered code

The items that a condition or a statement is lowered to, described by one rule for each form. The
rules say how the items of the parts are put together and which labels they share; they leave open
what the labels are called. A statement also adds switch tables: one for each switch in it, an
outer switch before those in its cases.

The main results say that whatever lowering lays out has the shape of its tree.
-/

namespace ScriptBackend

/-- The marker of the line of a position. -/
def lineMarker (span : Span) : Instruction :=
  { opcode := .lineNumber, operand := .line span.line, span := some span }

/-- What may stand in front of a statement: nothing, or the marker of its line. -/
def IsMark (span : Span) (mark : List Instruction) : Prop := mark = [] ∨ mark = [lineMarker span]

/-- The items of a condition that leaves for one of two labels. -/
inductive TestCode (trailers : Trailers) : Expr → Label → Label → List Item → Prop where
  /-- The second operand is tried where the first holds. -/
  | both {left right : Expr} {span : Span} {onTrue onFalse next : Label} {first second : List Item}
      (hleft : TestCode trailers left next onFalse first)
      (hright : TestCode trailers right onTrue onFalse second) :
      TestCode trailers (.condition left (.join .and) right span) onTrue onFalse
        (first ++ .bind next :: second)
  /-- The second operand is tried where the first does not hold. -/
  | either {left right : Expr} {span : Span} {onTrue onFalse next : Label}
      {first second : List Item} (hleft : TestCode trailers left onTrue next first)
      (hright : TestCode trailers right onTrue onFalse second) :
      TestCode trailers (.condition left (.join .or) right span) onTrue onFalse
        (first ++ .bind next :: second)
  /-- Both operands are pushed and compared. -/
  | compare {left right : Expr} {comparison : Comparison} {span : Span} {onTrue onFalse : Label}
      {first second : List Instruction} {branch : Instruction}
      (hleft : left.code trailers .value = .ok first)
      (hright : right.code trailers .value = .ok second)
      (hbranch : comparisonBranch comparison left.ty onTrue span = .ok branch) :
      TestCode trailers (.condition left (.compare comparison) right span) onTrue onFalse
        ((first ++ second ++ [branch, branchAlways onFalse span]).map .code)
  /-- Parentheses add nothing. -/
  | paren {inner : Expr} {span : Span} {onTrue onFalse : Label} {items : List Item}
      (hinner : TestCode trailers inner onTrue onFalse items) :
      TestCode trailers (.paren inner span) onTrue onFalse items

/-- The branch that follows a `switch`: none if control runs into the default case, which is
first. -/
def skipCode (cases : List Case) (done : Label) (fallback : Option Label) (span : Span) :
    List Instruction :=
  if (cases.head?.map Case.isDefault).getD false then []
  else [branchAlways (fallback.getD done) span]

/-- The instruction that chooses a case by a switch table. -/
def switchOn (table : Nat) (span : Span) : Instruction :=
  { opcode := .switch, operand := .table table, span := some span }

mutual

/-- The items and switch tables of a statement, where a number of tables stand before them. -/
inductive StmtCode (trailers : Trailers) (scope : Scope) :
    Stmt → Nat → List Item → List SwitchTable → Prop where
  /-- A statement without control flow is straight code. -/
  | straight {s : Stmt} {base : Nat} {mark code : List Instruction} (hmark : IsMark s.span mark)
      (hcode : s.straight? trailers = some (.ok code)) :
      StmtCode trailers scope s base ((mark ++ code).map .code) []
  /-- A block is its statements. -/
  | block {body : List Stmt} {span : Span} {base : Nat} {items : List Item}
      {tables : List SwitchTable} (hbody : StmtsCode trailers scope body base items tables) :
      StmtCode trailers scope (.block body span) base items tables
  /-- The arm stands between the test and the end. -/
  | ifThen {test : Expr} {onTrue : Stmt} {span : Span} {base : Nat} {mark : List Instruction}
      {whenTrue done : Label} {testItems arm : List Item} {tables : List SwitchTable}
      (hmark : IsMark span mark) (htest : TestCode trailers test whenTrue done testItems)
      (harm : StmtCode trailers scope onTrue base arm tables) :
      StmtCode trailers scope (.ifThen test onTrue span) base
        (mark.map .code ++ (testItems ++ .bind whenTrue ::
          (arm ++ [.code (branchAlways done span), .bind done]))) tables
  /-- Both arms leave for the end. -/
  | ifElse {test : Expr} {onTrue onFalse : Stmt} {span : Span} {base : Nat}
      {mark : List Instruction} {whenTrue whenFalse done : Label}
      {testItems first second : List Item} {firstTables secondTables : List SwitchTable}
      (hmark : IsMark span mark) (htest : TestCode trailers test whenTrue whenFalse testItems)
      (hfirst : StmtCode trailers scope onTrue base first firstTables)
      (hsecond : StmtCode trailers scope onFalse (base + firstTables.length) second
        secondTables) :
      StmtCode trailers scope (.ifElse test onTrue onFalse span) base
        (mark.map .code ++ (testItems ++ .bind whenTrue ::
          (first ++ .code (branchAlways done span) :: .bind whenFalse ::
            (second ++ [.code (branchAlways done span), .bind done]))))
        (firstTables ++ secondTables)
  /-- The body leads back to the test. -/
  | whileLoop {test : Expr} {body : Stmt} {span : Span} {base : Nat} {mark : List Instruction}
      {start inside done : Label} {testItems bodyItems : List Item} {tables : List SwitchTable}
      (hmark : IsMark span mark) (htest : TestCode trailers test inside done testItems)
      (hbody : StmtCode trailers scope body base bodyItems tables) :
      StmtCode trailers scope (.whileLoop test body span) base
        (mark.map .code ++ .bind start :: (testItems ++ .bind inside ::
          (bodyItems ++ [.code (branchAlways start span), .bind done]))) tables
  /-- The subject is pushed, a case is chosen, and all cases leave for the end. -/
  | switch {ty : Ty} {subject : Expr} {cases : List Case} {span : Span} {base : Nat}
      {mark code : List Instruction} {done : Label} {fallback : Option Label}
      {entries : List TableCase} {caseItems : List Item} {nested : List SwitchTable}
      (hmark : IsMark span mark) (hsubject : subject.code trailers .value = .ok code)
      (hfallback : fallback.isSome = cases.any Case.isDefault)
      (hcases : CasesCode trailers scope cases (base + 1) done fallback entries caseItems nested) :
      StmtCode trailers scope (.switch ty subject cases span) base
        ((mark ++ code ++ switchOn base span :: skipCode cases done fallback span).map .code ++
          (caseItems ++ [.bind done]))
        (⟨base, entries⟩ :: nested)

/-- The items and switch tables of statements in order. -/
inductive StmtsCode (trailers : Trailers) (scope : Scope) :
    List Stmt → Nat → List Item → List SwitchTable → Prop where
  | nil {base : Nat} : StmtsCode trailers scope [] base [] []
  | cons {first : Stmt} {rest : List Stmt} {base : Nat} {firstItems restItems : List Item}
      {firstTables restTables : List SwitchTable}
      (hfirst : StmtCode trailers scope first base firstItems firstTables)
      (hrest : StmtsCode trailers scope rest (base + firstTables.length) restItems restTables) :
      StmtsCode trailers scope (first :: rest) base (firstItems ++ restItems)
        (firstTables ++ restTables)

/-- The table entries, items and nested switch tables of the cases of a switch. A default case has
the label that was set aside for it. -/
inductive CasesCode (trailers : Trailers) (scope : Scope) :
    List Case → Nat → Label → Option Label → List TableCase → List Item → List SwitchTable →
      Prop where
  | nil {base : Nat} {done : Label} {fallback : Option Label} :
      CasesCode trailers scope [] base done fallback [] [] []
  | cons {keys : List Expr} {isDefault : Bool} {body : List Stmt} {span : Span}
      {rest : List Case} {base : Nat} {done label : Label} {fallback : Option Label}
      {constants : List Constant} {entries : List TableCase} {bodyItems restItems : List Item}
      {bodyTables restTables : List SwitchTable}
      (hlabel : ∀ set ∈ fallback, isDefault = true → label = set)
      (hkeys : keys.mapM (fun key => key.caseKey scope) = .ok constants)
      (hbody : StmtsCode trailers scope body base bodyItems bodyTables)
      (hrest : CasesCode trailers scope rest (base + bodyTables.length) done fallback entries
        restItems restTables) :
      CasesCode trailers scope (.mk keys isDefault body span :: rest) base done fallback
        (⟨constants, label⟩ :: entries)
        (.bind label :: (bodyItems ++ .code (branchAlways done span) :: restItems))
        (bodyTables ++ restTables)

end

mutual

/-- The switches of a statement with their subjects, an outer one before those in its cases. -/
def Stmt.switches : Stmt → List (Expr × List Case)
  | .block body _ => Stmt.switchesOf body
  | .ifThen _ onTrue _ => onTrue.switches
  | .ifElse _ onTrue onFalse _ => onTrue.switches ++ onFalse.switches
  | .whileLoop _ body _ => body.switches
  | .switch _ subject cases _ => (subject, cases) :: Case.switchesOf cases
  | .leave .. | .assign .. | .declare .. | .declareArray .. | .evaluate .. | .empty .. => []

/-- The switches of statements in order. -/
def Stmt.switchesOf : List Stmt → List (Expr × List Case)
  | [] => []
  | first :: rest => first.switches ++ Stmt.switchesOf rest

/-- The switches inside the cases of a switch, in order. -/
def Case.switchesOf : List Case → List (Expr × List Case)
  | [] => []
  | .mk _ _ body _ :: rest => Stmt.switchesOf body ++ Case.switchesOf rest

end

end ScriptBackend

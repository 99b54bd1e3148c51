import ScriptBackend.Proofs.Lowering.Straight
import ScriptBackend.Proofs.Semantics.Flat

/-!
# Structured execution

A script also runs by its tree, without labels. A connective runs its second operand only when the
first leaves the outcome open, a conditional runs one arm or none, a loop tests before each round,
and a switch runs the first case that has the key, else the default case, else nothing. A statement
without control flow runs its straight code. Loops are given a number of rounds each; a run that
needs more of them stops there, and what happened before is the beginning of the full run.
-/

namespace ScriptBackend

/-- Why a run by the tree stops. -/
inductive Ending where
  /-- A return or jump has ended the run. -/
  | ended
  /-- A loop needs more rounds than it was given. -/
  | outOfRounds
  deriving DecidableEq, Repr

/-- A run by the tree; what happened survives its end. -/
abbrev Exec := EStateM Ending History

namespace Exec

/-- Run an instruction; a return or jump ends the run. -/
def run (instruction : Instruction) : Exec Unit := fun history =>
  if instruction.opcode.isExit then .error .ended (history ++ [.ran instruction])
  else .ok () (history ++ [.ran instruction])

/-- Run instructions in order. -/
def runAll : List Instruction → Exec Unit
  | [] => pure ()
  | first :: rest => do
    run first
    runAll rest

/-- Run straight code; where there is none nothing happens. -/
def runCode : StraightCode → Exec Unit
  | .ok code => runAll code
  | .error _ => pure ()

/-- Ask the oracle how a comparison comes out. -/
def test (oracle : Oracle) (opcode : Opcode) : Exec Bool := fun history =>
  .ok (oracle.holds history opcode)
    (history ++ [.tested opcode (oracle.holds history opcode)])

/-- Ask the oracle for the key of a switch. -/
def choose (oracle : Oracle) : Exec Constant := fun history =>
  .ok (oracle.key history) (history ++ [.chose (oracle.key history)])

/-- Run rounds of a loop while its test holds. -/
def loop : Nat → Exec Bool → Exec Unit → Exec Unit
  | 0, _, _ => fun history => .error .outOfRounds history
  | rounds + 1, test, body => do
    if ← test then
      body
      loop rounds test body
    else pure ()

end Exec

/-- Run a condition and find out whether it holds. -/
def Expr.test (trailers : Trailers) (oracle : Oracle) : Expr → Exec Bool
  | .condition left (.join .and) right _ => do
    if ← left.test trailers oracle then right.test trailers oracle else return false
  | .condition left (.join .or) right _ => do
    if ← left.test trailers oracle then return true else right.test trailers oracle
  | .condition left (.compare comparison) right _ => do
    Exec.runCode (left.code trailers .value)
    Exec.runCode (right.code trailers .value)
    match left.ty.stackType?.bind comparison.branch? with
    | some opcode => Exec.test oracle opcode
    | none => return false
  | .paren inner _ => inner.test trailers oracle
  | _ => return false

namespace Case

/-- Whether a case has a key. -/
def hasKey (scope : Scope) (key : Constant) (case : Case) : Bool :=
  case.keys.any fun candidate =>
    match candidate.caseKey scope with
    | .ok constant => constant.same key
    | .error _ => false

/-- The position of the case that a key leads to: the first that has it, else the default case. -/
def choice? (scope : Scope) (key : Constant) (cases : List Case) : Option Nat :=
  (cases.findIdx? (hasKey scope key)).or (cases.findIdx? isDefault)

end Case

/-- Run a statement without control flow; any other is left out. -/
def Stmt.runStraight (trailers : Trailers) (s : Stmt) : Exec Unit :=
  match s.straight? trailers with
  | some code => Exec.runCode code
  | none => return ()

section Trees

variable (trailers : Trailers) (scope : Scope) (oracle : Oracle) (rounds : Nat)

mutual

/-- Run a statement. -/
def Stmt.exec : Stmt → Exec Unit
  | .block body _ => Stmt.execAll body
  | .ifThen test onTrue _ => do
    if ← test.test trailers oracle then onTrue.exec else return ()
  | .ifElse test onTrue onFalse _ => do
    if ← test.test trailers oracle then onTrue.exec else onFalse.exec
  | .whileLoop test body _ => Exec.loop rounds (test.test trailers oracle) body.exec
  | .switch _ subject cases _ => do
    Exec.runCode (subject.code trailers .value)
    let key ← Exec.choose oracle
    match Case.choice? scope key cases with
    | some position => Case.execAt position cases
    | none => return ()
  | other => other.runStraight trailers

/-- Run statements in order. -/
def Stmt.execAll : List Stmt → Exec Unit
  | [] => return ()
  | first :: rest => do
    first.exec
    Stmt.execAll rest

/-- Run the statements of the case at a position. -/
def Case.execAt : Nat → List Case → Exec Unit
  | _, [] => return ()
  | 0, .mk _ _ body _ :: _ => Stmt.execAll body
  | position + 1, _ :: rest => Case.execAt position rest

end

/-- Run a script: its body, then the return of default values. -/
def ScriptDecl.exec (decl : ScriptDecl) : Exec Unit := do
  Stmt.execAll trailers scope oracle rounds decl.body
  Exec.runCode (defaultLeaveCode decl.symbol.returns decl.span)

/-- A statement without control flow runs its straight code. -/
theorem Stmt.exec_of_straight? {s : Stmt} {code : StraightCode}
    (h : s.straight? trailers = some code) :
    s.exec trailers scope oracle rounds = Exec.runCode code := by
  have hstraight : s.exec trailers scope oracle rounds = s.runStraight trailers := by
    cases s with
    | block | ifThen | ifElse | whileLoop | switch => cases h
    | _ => rw [Stmt.exec]; all_goals simp
  rw [hstraight, runStraight, h]

end Trees

namespace Exec

/-- A run adds events to what happened: some number of them if it gives a value, and at least as
many as there are rounds if it runs out of them. -/
def Grows {α : Type} (rounds : Nat) (growth : α → Nat) (exec : Exec α) : Prop :=
  ∀ history : History, match exec history with
    | .ok value after => history.length + growth value ≤ after.length
    | .error .ended after => history.length ≤ after.length
    | .error .outOfRounds after => history.length + rounds ≤ after.length

namespace Grows

variable {α β : Type} {rounds : Nat} {growth : α → Nat} {growth' : β → Nat}

theorem pure {value : α} (h : growth value = 0) : Grows rounds growth (pure value) := by
  intro history
  change history.length + growth value ≤ history.length
  omega

/-- Runs in order add what each adds. -/
theorem bind {exec : Exec α} {next : α → Exec β} (h : Grows rounds growth exec)
    (hnext : ∀ value, Grows (rounds - growth value)
      (fun result => growth' result - growth value) (next value)) :
    Grows rounds growth' (exec >>= next) := by
  intro history
  have hfirst := h history
  change match EStateM.bind exec next history with
    | .ok value after => history.length + growth' value ≤ after.length
    | .error .ended after => history.length ≤ after.length
    | .error .outOfRounds after => history.length + rounds ≤ after.length
  unfold EStateM.bind
  cases hexec : exec history with
  | ok value middle =>
    have hsecond := hnext value middle
    rw [hexec] at hfirst
    simp only at hfirst ⊢
    cases hresult : next value middle with
    | ok result after =>
      rw [hresult] at hsecond
      simp only at hsecond ⊢
      omega
    | error ending after =>
      rw [hresult] at hsecond
      cases ending <;> simp only at hsecond ⊢ <;> omega
  | error ending after =>
    rw [hexec] at hfirst
    cases ending <;> simpa using hfirst

/-- A run that adds many events adds fewer. -/
theorem mono {exec : Exec α} {fewer : Nat} {less : α → Nat} (h : Grows rounds growth exec)
    (hfewer : fewer ≤ rounds) (hless : ∀ value, less value ≤ growth value) :
    Grows fewer less exec := by
  intro history
  have hgrows := h history
  cases hexec : exec history with
  | ok value after =>
    rw [hexec] at hgrows
    have hvalue := hless value
    simp only at hgrows ⊢
    omega
  | error ending after =>
    rw [hexec] at hgrows
    cases ending <;> simp only at hgrows ⊢ <;> omega

end Grows

/-- A run that is done for its effects adds events or none. -/
abbrev Goes (rounds : Nat) (exec : Exec Unit) : Prop := Grows rounds (fun _ => 0) exec

/-- A test adds an event if it comes out true. -/
abbrev Tests (rounds : Nat) (exec : Exec Bool) : Prop := Grows rounds Bool.toNat exec

variable {rounds : Nat}

/-- An instruction adds an event. -/
theorem goes_run (instruction : Instruction) : Goes rounds (run instruction) := by
  intro history
  unfold run
  cases instruction.opcode.isExit <;> simp

/-- Instructions add events. -/
theorem goes_runAll (code : List Instruction) : Goes rounds (runAll code) := by
  induction code with
  | nil => exact .pure rfl
  | cons first rest ih => exact (goes_run first).bind fun _ => ih

/-- Straight code adds events. -/
theorem goes_runCode (code : StraightCode) : Goes rounds (runCode code) := by
  cases code with
  | ok code => exact goes_runAll code
  | error error => exact .pure rfl

/-- A comparison adds an event, whatever comes out. -/
theorem tests_test (oracle : Oracle) (opcode : Opcode) : Tests rounds (test oracle opcode) := by
  intro history
  have hle := Bool.toNat_le (oracle.holds history opcode)
  simp only [test, List.length_append, List.length_singleton]
  omega

/-- A switch that is given its key adds an event. -/
theorem grows_choose (oracle : Oracle) : Grows rounds (fun _ => 0) (choose oracle) := by
  intro history
  simp [choose]

/-- A loop that runs out of its rounds has tested once in each. -/
theorem goes_loop {test : Exec Bool} {body : Exec Unit} (htest : Tests rounds test)
    (hbody : Goes rounds body) : Goes rounds (loop rounds test body) := by
  suffices hleft : ∀ left ≤ rounds, Goes left (loop left test body) from
    hleft rounds (Nat.le_refl rounds)
  intro left
  induction left with
  | zero => exact fun _ history => Nat.le_refl _
  | succ left ih =>
    intro hle
    refine (htest.mono hle fun _ => Nat.le_refl _).bind fun holds => ?_
    cases holds with
    | true =>
      have hround : Goes left body := hbody.mono (by omega) fun _ => Nat.le_refl _
      exact hround.bind fun _ => ih (by omega)
    | false => exact .pure rfl

end Exec

section Trees

open Exec

variable (trailers : Trailers) (scope : Scope) (oracle : Oracle) (rounds : Nat)

/-- A condition adds an event if it holds. -/
theorem Expr.tests_test (e : Expr) : Tests rounds (e.test trailers oracle) := by
  induction e using Expr.test.induct with
  | case1 left right span ihleft ihright =>
    rw [Expr.test]
    refine ihleft.bind fun holds => ?_
    cases holds with
    | true => exact ihright.mono (Nat.sub_le ..) fun _ => Nat.sub_le ..
    | false => exact .pure rfl
  | case2 left right span ihleft ihright =>
    rw [Expr.test]
    refine ihleft.bind fun holds => ?_
    cases holds with
    | true => exact .pure rfl
    | false => exact ihright.mono (Nat.sub_le ..) fun _ => Nat.sub_le ..
  | case3 left comparison right span =>
    rw [Expr.test]
    refine (goes_runCode _).bind fun _ => (goes_runCode _).bind fun _ => ?_
    split
    · exact Exec.tests_test oracle _
    · exact .pure rfl
  | case4 inner span ih =>
    rw [Expr.test]
    exact ih
  | case5 e =>
    rw [Expr.test]
    · exact .pure rfl
    all_goals assumption

/-- A statement without control flow adds events. -/
private theorem Stmt.goes_straight {s : Stmt} {code : StraightCode}
    (h : s.straight? trailers = some code) :
    Goes rounds (s.exec trailers scope oracle rounds) := by
  rw [Stmt.exec_of_straight? trailers scope oracle rounds h]
  exact goes_runCode code

mutual

/-- A statement adds events. -/
theorem Stmt.goes_exec : ∀ s : Stmt, Goes rounds (s.exec trailers scope oracle rounds)
  | .block body _ => by
    rw [Stmt.exec]
    exact Stmt.goes_execAll body
  | .ifThen test onTrue _ => by
    rw [Stmt.exec]
    refine (test.tests_test trailers oracle rounds).bind fun holds => ?_
    cases holds with
    | true => exact (Stmt.goes_exec onTrue).mono (Nat.sub_le ..) fun _ => Nat.sub_le ..
    | false => exact .pure rfl
  | .ifElse test onTrue onFalse _ => by
    rw [Stmt.exec]
    refine (test.tests_test trailers oracle rounds).bind fun holds => ?_
    cases holds with
    | true => exact (Stmt.goes_exec onTrue).mono (Nat.sub_le ..) fun _ => Nat.sub_le ..
    | false => exact (Stmt.goes_exec onFalse).mono (Nat.sub_le ..) fun _ => Nat.sub_le ..
  | .whileLoop test body _ => by
    rw [Stmt.exec]
    exact goes_loop (test.tests_test trailers oracle rounds) (Stmt.goes_exec body)
  | .switch _ subject cases _ => by
    rw [Stmt.exec]
    refine (goes_runCode _).bind fun _ => (grows_choose oracle).bind fun key => ?_
    split
    · exact Case.goes_execAt _ cases
    · exact .pure rfl
  | .leave values span => Stmt.goes_straight trailers scope oracle rounds rfl
  | .assign targets values span => Stmt.goes_straight trailers scope oracle rounds rfl
  | .declare name ty symbol initial span => Stmt.goes_straight trailers scope oracle rounds rfl
  | .declareArray name ty symbol size span => Stmt.goes_straight trailers scope oracle rounds rfl
  | .evaluate value span => Stmt.goes_straight trailers scope oracle rounds rfl
  | .empty span => Stmt.goes_straight trailers scope oracle rounds rfl

/-- Statements add events. -/
theorem Stmt.goes_execAll : ∀ body : List Stmt,
    Goes rounds (Stmt.execAll trailers scope oracle rounds body)
  | [] => by
    rw [Stmt.execAll]
    exact .pure rfl
  | first :: rest => by
    rw [Stmt.execAll]
    exact (Stmt.goes_exec first).bind fun _ => Stmt.goes_execAll rest

/-- A case adds events. -/
theorem Case.goes_execAt : ∀ (position : Nat) (cases : List Case),
    Goes rounds (Case.execAt trailers scope oracle rounds position cases)
  | position, [] => by
    rw [Case.execAt]
    exact .pure rfl
  | 0, .mk _ _ body _ :: _ => by
    rw [Case.execAt]
    exact Stmt.goes_execAll body
  | position + 1, _ :: rest => by
    rw [Case.execAt]
    exact Case.goes_execAt position rest

end

/-- A script that runs out of rounds has at least as many events behind it. -/
theorem ScriptDecl.goes_exec (decl : ScriptDecl) :
    Goes rounds (decl.exec trailers scope oracle rounds) :=
  (Stmt.goes_execAll trailers scope oracle rounds decl.body).bind fun _ => goes_runCode _

end Trees

end ScriptBackend

import ScriptBackend.Pointer.Basic

/-!
# Triggers

A trigger says when the engine runs a script, and with it which pointers are valid at the start.
Scripts that other scripts call start with whatever their caller holds, so nothing is promised to
them.
-/

namespace ScriptBackend

/-- When the engine runs a script. -/
inductive Trigger where
  /-- Called by another script, and returns. -/
  | proc
  /-- Jumped to by another script, and does not return. -/
  | label
  | queue
  | weakQueue
  | timer
  | softTimer
  | aiQueue
  | aiTimer
  /-- Operation of a given number on an npc. -/
  | opNpc (number : UInt8)
  /-- Operation of a given number on a loc. -/
  | opLoc (number : UInt8)
  /-- Operation of a given number on an obj on the ground. -/
  | opObj (number : UInt8)
  /-- Operation of a given number on an obj that is held. -/
  | opHeld (number : UInt8)
  | ifButton
  | login
  | logout
  | debugProc
  deriving DecidableEq, Repr

namespace Trigger

/-- Whether other scripts can call or jump to scripts of the trigger. -/
def isInvokable : Trigger → Bool
  | .proc | .label => true
  | _ => false

/-- The active player with protected access. -/
def player : PointerSet := .ofList [.activePlayer, .pActivePlayer]

/-- The pointers that are valid when a script of the trigger starts. -/
def entryPointers : Trigger → PointerSet
  | .proc | .label => ∅
  | .queue | .timer | .ifButton | .login | .logout | .debugProc => player
  | .weakQueue | .softTimer => .single .activePlayer
  | .aiQueue | .aiTimer => .single .activeNpc
  | .opNpc _ => player ∪ .single .activeNpc
  | .opLoc _ => player ∪ .single .activeLoc
  | .opObj _ | .opHeld _ => player ∪ .single .activeObj

/-- The name of a trigger. -/
def name : Trigger → String
  | .proc => "proc"
  | .label => "label"
  | .queue => "queue"
  | .weakQueue => "weakqueue"
  | .timer => "timer"
  | .softTimer => "softtimer"
  | .aiQueue => "ai_queue"
  | .aiTimer => "ai_timer"
  | .opNpc number => "opnpc" ++ toString number.toNat
  | .opLoc number => "oploc" ++ toString number.toNat
  | .opObj number => "opobj" ++ toString number.toNat
  | .opHeld number => "opheld" ++ toString number.toNat
  | .ifButton => "if_button"
  | .login => "login"
  | .logout => "logout"
  | .debugProc => "debugproc"

/-- Every trigger: those without a number, then the four numbered kinds with every number. -/
def all : List Trigger :=
  [.proc, .label, .queue, .weakQueue, .timer, .softTimer, .aiQueue, .aiTimer, .ifButton, .login,
    .logout, .debugProc] ++
  (List.range 256).flatMap fun n =>
    [.opNpc (.ofNat n), .opLoc (.ofNat n), .opObj (.ofNat n), .opHeld (.ofNat n)]

/-- The trigger of a given name. -/
def ofName? (text : String) : Option Trigger := all.find? fun trigger => trigger.name = text

/-- Exactly the callable triggers promise nothing at the start. -/
theorem entryPointers_eq_empty_iff (trigger : Trigger) :
    trigger.entryPointers = ∅ ↔ trigger.isInvokable = true := by
  cases trigger <;> simp only [entryPointers, isInvokable] <;> decide

end Trigger

end ScriptBackend

import ScriptBackend.Code.Instruction
import ScriptBackend.Pointer.Effects

/-!
# Effects of single instructions

A command has the effects of its contract, a call the effects of the script it calls, and an access
to a game variable requires the pointer that the variable is reached through. All other instructions
have none. How the effects of a called script are found is left to the caller, who may remember
which scripts were asked for.
-/

namespace ScriptBackend

/-- Whether an access goes through the secondary pointers. -/
def Opcode.isSecondary : Opcode → Bool
  | .pushVar2 | .popVar2 => true
  | _ => false

/-- Whether an access writes a game variable. -/
def Opcode.isVarWrite : Opcode → Bool
  | .popVar | .popVar2 => true
  | _ => false

/-- The pointer that an access to a game variable goes through. A write to a protected variable of a
player takes protected access. -/
def GameSymbol.accessPointer (symbol : GameSymbol) (opcode : Opcode) : Pointer :=
  match symbol.kind with
  | .player | .bit =>
    match opcode.isVarWrite && symbol.isProtected, opcode.isSecondary with
    | true, false => .pActivePlayer
    | true, true => .pActivePlayer2
    | false, false => .activePlayer
    | false, true => .activePlayer2
  | .npc => if opcode.isSecondary then .activeNpc2 else .activeNpc

/-- The effects of an instruction, given a way to find the effects of a called script. -/
def Instruction.effects {m : Type → Type} [Monad m] (contracts : Contracts)
    (callee : ScriptSymbol → m Effects) (instruction : Instruction) : m Effects :=
  match instruction.opcode with
  | .command =>
    match instruction.symbol? with
    | some (.command symbol) => pure (contracts.get symbol.name)
    | _ => pure .none
  | .gosub | .jump =>
    match instruction.symbol? with
    | some (.script symbol) => callee symbol
    | _ => pure .none
  | .pushVar | .pushVar2 | .popVar | .popVar2 =>
    match instruction.symbol? with
    | some (.gameVar symbol) =>
      pure (Effects.none.requires (.single (symbol.accessPointer instruction.opcode)))
    | _ => pure .none
  | _ => pure .none

end ScriptBackend

import ScriptBackend.Text.Digest
import ScriptBackend.Trigger
import ScriptBackend.Ty

/-!
# Symbols

Every name of a resolved tree stands for one of six kinds of symbol. A script is identified by the
digest of its trigger and name alone, so a forward reference and the declaration it refers to are
the same script whatever types they state. All other symbols are the same when all their parts are.
-/

namespace ScriptBackend

/-- The identity of a script, the key of everything that is remembered per script. -/
structure ScriptId where
  /-- The digest of the script's written form. -/
  digest : UInt64
  deriving DecidableEq, Repr

namespace ScriptId

/-- The seed under which script names are digested. -/
def seed : UInt64 := 0x5ea77ffbcdf5f302

/-- An identity in hexadecimal, sixteen digits after the mark. -/
def hex (id : ScriptId) : String :=
  let digits := Nat.toDigits 16 id.digest.toNat
  "0x" ++ String.ofList (List.replicate (16 - digits.length) '0' ++ digits)

/-- An identity as it reads in a dump. -/
def text (id : ScriptId) : String := "SymbolHash(" ++ id.hex ++ ")"

end ScriptId

/-- A script that is declared or referred to. -/
structure ScriptSymbol where
  /-- When the engine runs the script. -/
  trigger : Trigger
  /-- The script's name. -/
  name : String
  /-- Types of the parameters. -/
  parameters : List Ty := []
  /-- Types of the values that the script returns. -/
  returns : List Ty := []
  deriving DecidableEq, Repr

namespace ScriptSymbol

/-- The written form of a script: trigger and name in brackets. -/
def text (script : ScriptSymbol) : String :=
  "[" ++ script.trigger.name ++ "," ++ script.name ++ "]"

/-- The identity of a script. -/
def id (script : ScriptSymbol) : ScriptId := ⟨Text.digest ScriptId.seed script.text⟩

/-- Two scripts are the same when their identities are. -/
def same (s t : ScriptSymbol) : Bool := s.id = t.id

/-- Parameters and returns are no part of a script's identity. -/
theorem id_congr {s t : ScriptSymbol} (htrigger : s.trigger = t.trigger) (hname : s.name = t.name) :
    s.id = t.id := by
  simp only [id, text, htrigger, hname]

end ScriptSymbol

/-- A command of the engine. -/
structure CommandSymbol where
  /-- The command's name. -/
  name : String
  /-- Types of the parameters. -/
  parameters : List Ty := []
  /-- Types of the values that the command returns. -/
  returns : List Ty := []
  deriving DecidableEq, Repr

/-- A local variable or parameter of a script. -/
structure LocalSymbol where
  /-- The variable's name. -/
  name : String
  /-- The variable's type. -/
  ty : Ty
  deriving DecidableEq, Repr

/-- The slot space that a local variable lives in. -/
def LocalSymbol.space (symbol : LocalSymbol) : StackType := symbol.ty.slotSpace

/-- The entity that stores a game variable. -/
inductive GameVarKind where
  /-- Stored on a player. -/
  | player
  /-- Packed into bits of a player variable. -/
  | bit
  /-- Stored on an npc. -/
  | npc
  deriving DecidableEq, Repr

/-- The word for the owner of a game variable. -/
def GameVarKind.name : GameVarKind → String
  | .player => "player"
  | .bit => "bit"
  | .npc => "npc"

/-- The owner that a word stands for. -/
def GameVarKind.ofName? (text : String) : Option GameVarKind :=
  [GameVarKind.player, .bit, .npc].find? fun kind => kind.name = text

/-- A variable that the engine stores. -/
structure GameSymbol where
  /-- The variable's name. -/
  name : String
  /-- The entity that stores it. -/
  kind : GameVarKind
  /-- The variable's type. -/
  ty : Ty
  /-- Whether writing takes protected access to the owner. -/
  isProtected : Bool := false
  deriving DecidableEq, Repr

/-- A named constant and the text of its value. -/
structure ConstantSymbol where
  /-- The constant's name. -/
  name : String
  /-- The text of its value. -/
  value : String
  deriving DecidableEq, Repr

/-- A named entry of the game's configuration. -/
structure ConfigSymbol where
  /-- The entry's name. -/
  name : String
  /-- The entry's type. -/
  ty : Ty
  deriving DecidableEq, Repr

/-- What a name stands for. -/
inductive Symbol where
  | script (symbol : ScriptSymbol)
  | command (symbol : CommandSymbol)
  | localVar (symbol : LocalSymbol)
  | gameVar (symbol : GameSymbol)
  | constant (symbol : ConstantSymbol)
  | config (symbol : ConfigSymbol)
  deriving DecidableEq, Repr

namespace Symbol

/-- The bare name of a symbol. -/
def name : Symbol → String
  | .script symbol => symbol.name
  | .command symbol => symbol.name
  | .localVar symbol => symbol.name
  | .gameVar symbol => symbol.name
  | .constant symbol => symbol.name
  | .config symbol => symbol.name

/-- A symbol as it reads in a listing, with the mark of its kind. -/
def text : Symbol → String
  | .script symbol => symbol.text
  | .command symbol => symbol.name
  | .localVar symbol => "$" ++ symbol.name
  | .gameVar symbol => "%" ++ symbol.name
  | .constant symbol => "^" ++ symbol.name
  | .config symbol => symbol.name

/-- The word for the kind of a symbol. -/
def kindName : Symbol → String
  | .script _ => "script"
  | .command _ => "command"
  | .localVar _ => "local"
  | .gameVar _ => "game"
  | .constant _ => "const"
  | .config _ => "config"

/-- Two symbols are the same: scripts by identity, all others by their parts. -/
def same : Symbol → Symbol → Bool
  | .script s, .script t => s.same t
  | .script _, _ | _, .script _ => false
  | s, t => s = t

/-- The script that a symbol is. -/
def script? : Symbol → Option ScriptSymbol
  | .script symbol => some symbol
  | _ => none

/-- The command that a symbol is. -/
def command? : Symbol → Option CommandSymbol
  | .command symbol => some symbol
  | _ => none

/-- The local variable that a symbol is. -/
def local? : Symbol → Option LocalSymbol
  | .localVar symbol => some symbol
  | _ => none

/-- The game variable that a symbol is. -/
def game? : Symbol → Option GameSymbol
  | .gameVar symbol => some symbol
  | _ => none

/-- The constant that a symbol is. -/
def constant? : Symbol → Option ConstantSymbol
  | .constant symbol => some symbol
  | _ => none

/-- The configuration entry that a symbol is. -/
def config? : Symbol → Option ConfigSymbol
  | .config symbol => some symbol
  | _ => none

/-- Every symbol is the same as itself. -/
@[simp] theorem same_self (symbol : Symbol) : symbol.same symbol = true := by
  cases symbol <;> simp [same, ScriptSymbol.same]

end Symbol

end ScriptBackend

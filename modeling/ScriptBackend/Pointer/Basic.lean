/-!
# Engine pointers

A pointer is a handle that the engine keeps for a running script, such as the active player. Sets
of pointers are words of one bit per pointer. A word may carry bits that name no pointer; they are
kept, take part in unions and containment, and count together as one last member of the set.
-/

namespace ScriptBackend

/-- The pointers that the engine names. -/
inductive Pointer where
  | activePlayer
  | activePlayer2
  /-- Protected access to the active player. -/
  | pActivePlayer
  /-- Protected access to the second active player. -/
  | pActivePlayer2
  | activeNpc
  | activeNpc2
  | activeLoc
  | activeLoc2
  | activeObj
  | activeObj2
  | findPlayer
  | findNpc
  | findLoc
  | findObj
  | lastCom
  deriving DecidableEq, Repr

namespace Pointer

/-- Every named pointer, in bit order. -/
def all : List Pointer :=
  [.activePlayer, .activePlayer2, .pActivePlayer, .pActivePlayer2, .activeNpc, .activeNpc2,
    .activeLoc, .activeLoc2, .activeObj, .activeObj2, .findPlayer, .findNpc, .findLoc, .findObj,
    .lastCom]

/-- The bit of a pointer in a set. -/
def bit : Pointer → Nat
  | .activePlayer => 0
  | .activePlayer2 => 1
  | .pActivePlayer => 2
  | .pActivePlayer2 => 3
  | .activeNpc => 4
  | .activeNpc2 => 5
  | .activeLoc => 6
  | .activeLoc2 => 7
  | .activeObj => 8
  | .activeObj2 => 9
  | .findPlayer => 10
  | .findNpc => 11
  | .findLoc => 12
  | .findObj => 13
  | .lastCom => 14

/-- The name of a pointer in scripts. -/
def name : Pointer → String
  | .activePlayer => "active_player"
  | .activePlayer2 => "active_player2"
  | .pActivePlayer => "p_active_player"
  | .pActivePlayer2 => "p_active_player2"
  | .activeNpc => "active_npc"
  | .activeNpc2 => "active_npc2"
  | .activeLoc => "active_loc"
  | .activeLoc2 => "active_loc2"
  | .activeObj => "active_obj"
  | .activeObj2 => "active_obj2"
  | .findPlayer => "find_player"
  | .findNpc => "find_npc"
  | .findLoc => "find_loc"
  | .findObj => "find_obj"
  | .lastCom => "last_com"

/-- The pointer of a given name. -/
def ofName? (text : String) : Option Pointer := all.find? fun pointer => pointer.name = text

/-- Every pointer is listed. -/
theorem mem_all (pointer : Pointer) : pointer ∈ all := by cases pointer <;> decide

/-- The listing is in bit order. -/
theorem map_bit_all : all.map bit = List.range 15 := by decide

end Pointer

/-- A set of pointers, one bit each. -/
structure PointerSet where
  /-- The bits of the set; bits that name no pointer are kept. -/
  bits : BitVec 32
  deriving DecidableEq, Repr

namespace PointerSet

/-- The set without members. -/
def empty : PointerSet := ⟨0⟩

instance : EmptyCollection PointerSet := ⟨empty⟩

/-- The set of one pointer. -/
def single (pointer : Pointer) : PointerSet := ⟨BitVec.twoPow 32 pointer.bit⟩

/-- The union of two sets. -/
def union (s t : PointerSet) : PointerSet := ⟨s.bits ||| t.bits⟩

instance : Union PointerSet := ⟨union⟩

/-- The set of some pointers. -/
def ofList (pointers : List Pointer) : PointerSet :=
  pointers.foldl (fun set pointer => set ∪ single pointer) ∅

/-- Whether every bit of `t` is in `s`. -/
def contains (s t : PointerSet) : Bool := s.bits &&& t.bits == t.bits

/-- Whether the set has no bit at all. -/
def isEmpty (s : PointerSet) : Bool := s.bits == 0

/-- The bits of all named pointers. -/
def namedBits : BitVec 32 := 0x7fff

/-- The part of a set that names no pointer. -/
def unnamed (s : PointerSet) : PointerSet := ⟨s.bits &&& ~~~namedBits⟩

/-- The members of a set: its named pointers in bit order, then the unnamed rest, if any, as one
member. -/
def members (s : PointerSet) : List PointerSet :=
  ((Pointer.all.map single).filter fun pointer => s.contains pointer) ++
    if s.unnamed.isEmpty then [] else [s.unnamed]

/-- The name of a set that is exactly one named pointer. -/
def name? (s : PointerSet) : Option String :=
  (Pointer.all.find? fun pointer => single pointer = s).map Pointer.name

/-- A set reads as the names of its members between braces. -/
def text (s : PointerSet) : String :=
  "\x7b" ++ ", ".intercalate (s.members.map fun member => member.name?.getD "?") ++ "\x7d"

/-- The empty set has no bits. -/
@[simp] theorem getLsbD_empty (i : Nat) : (∅ : PointerSet).bits.getLsbD i = false :=
  BitVec.getLsbD_zero

/-- Bits of a union. -/
@[simp] theorem getLsbD_union (s t : PointerSet) (i : Nat) :
    (s ∪ t).bits.getLsbD i = (s.bits.getLsbD i || t.bits.getLsbD i) := by
  change (s.bits ||| t.bits).getLsbD i = _
  exact BitVec.getLsbD_or ..

/-- Containment is inclusion of bits. -/
theorem contains_iff {s t : PointerSet} :
    s.contains t = true ↔ ∀ i, t.bits.getLsbD i = true → s.bits.getLsbD i = true := by
  rw [contains, beq_iff_eq]
  constructor
  · intro h i hi
    rw [← h, BitVec.getLsbD_and, Bool.and_eq_true] at hi
    exact hi.1
  · intro h
    apply BitVec.eq_of_getLsbD_eq
    intro i _
    rw [BitVec.getLsbD_and]
    cases ht : t.bits.getLsbD i with
    | false => simp
    | true => simp [h i ht]

/-- A set contains a named pointer exactly when it has the pointer's bit. -/
theorem contains_single_iff {s : PointerSet} {pointer : Pointer} :
    s.contains (single pointer) = true ↔ s.bits.getLsbD pointer.bit = true := by
  have hbit : pointer.bit < 32 := by cases pointer <;> decide
  rw [contains_iff]
  constructor
  · intro h
    exact h _ (by simp [single, hbit])
  · intro h i hi
    have : pointer.bit = i := by
      simp only [single, BitVec.getLsbD_twoPow, Bool.and_eq_true, decide_eq_true_eq] at hi
      exact hi.2
    exact this ▸ h

end PointerSet

end ScriptBackend

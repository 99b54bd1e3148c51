import ScriptBackend.Flow.Basic
import ScriptBackend.Graph.Search

/-!
# Corruption paths

A script exits with a pointer corrupted when control can run from an instruction that corrupts it to
an exit without passing an instruction that restores it. Exits are returns and those jumps that do
not restore the pointer themselves. A jump's own effect is reported by the script it leads to, so
the search starts at the nodes before the exits. Among several exits after one node the first is
reported, returns before jumps, each kind in node order.
-/

namespace ScriptBackend

/-- A way for a script to exit with a pointer corrupted. -/
structure CorruptionPath where
  /-- The pointer. -/
  pointer : PointerSet
  /-- The walk from the corrupting node to the last node before the exit. -/
  trail : Trail
  /-- The return or jump that the walk leaves by. -/
  exit : Nat
  deriving DecidableEq, Repr

/-- A number put in its place among ascending ones. -/
def insertAscending (value : Nat) : List Nat → List Nat
  | [] => [value]
  | first :: rest =>
    if value ≤ first then value :: first :: rest else first :: insertAscending value rest

/-- Numbers in ascending order. -/
def ascending (values : List Nat) : List Nat := values.foldr insertAscending []

/-- Putting a number in its place adds it and nothing else. -/
private theorem insertAscending_perm (value : Nat) (values : List Nat) :
    (insertAscending value values).Perm (value :: values) := by
  fun_induction insertAscending value values with
  | case1 => exact .refl _
  | case2 first rest hle => exact .refl _
  | case3 first rest hle ih => exact (ih.cons first).trans (.swap value first rest)

/-- Numbers stay ascending when one more is put in its place. -/
private theorem pairwise_insertAscending (value : Nat) {values : List Nat}
    (h : values.Pairwise (· ≤ ·)) : (insertAscending value values).Pairwise (· ≤ ·) := by
  fun_induction insertAscending value values with
  | case1 => exact List.pairwise_singleton _ _
  | case2 first rest hle =>
    have hfirst := (List.pairwise_cons.mp h).1
    refine List.pairwise_cons.mpr ⟨?_, h⟩
    intro other hother
    rcases List.mem_cons.mp hother with rfl | hother
    · exact hle
    · exact Nat.le_trans hle (hfirst other hother)
  | case3 first rest hle ih =>
    obtain ⟨hfirst, hrest⟩ := List.pairwise_cons.mp h
    refine List.pairwise_cons.mpr ⟨?_, ih hrest⟩
    intro other hother
    rcases List.mem_cons.mp ((insertAscending_perm value rest).mem_iff.mp hother) with rfl | hother
    · exact Nat.le_of_not_le hle
    · exact hfirst other hother

/-- Putting numbers in their places one after the other sorts them. -/
theorem ascending_eq_mergeSort (values : List Nat) : ascending values = values.mergeSort := by
  have hperm : (ascending values).Perm values := by
    induction values with
    | nil => exact .refl _
    | cons first rest ih => exact (insertAscending_perm first _).trans (ih.cons first)
  have hsorted : (ascending values).Pairwise (· ≤ ·) :=
    List.foldrRecOn values _ .nil fun _ h value _ => pairwise_insertAscending value h
  have hmerged : values.mergeSort.Pairwise (· ≤ ·) := by
    have hpairwise := @List.pairwise_mergeSort Nat (fun first second => decide (first ≤ second))
      (by simpa using fun _ _ _ => Nat.le_trans) (by simpa using Nat.le_total) values
    simpa only [decide_eq_true_eq] using hpairwise
  exact List.Perm.eq_of_pairwise (fun _ _ _ _ => Nat.le_antisymm) hsorted hmerged
    (hperm.trans (List.mergeSort_perm values _).symm)

namespace FlowGraph

/-- Whether a node leaves a pointer valid, by a table of the effects of each node. -/
def restoresAt (table : List Effects) (pointer : PointerSet) (node : Nat) : Bool :=
  (table.getD node .none).restores pointer

/-- Whether a node corrupts a pointer, by a table of the effects of each node. -/
def corruptsAt (table : List Effects) (pointer : PointerSet) (node : Nat) : Bool :=
  (table.getD node .none).corrupted.contains pointer

/-- The exits that do not restore a pointer: all returns, then the jumps. -/
def exits (graph : FlowGraph) (table : List Effects) (pointer : PointerSet) : List Nat :=
  graph.nodesWith .leave ++
    (graph.nodesWith .jump).filter fun jump => !restoresAt table pointer jump

/-- Each node that leads to an exit and does not restore the pointer, with the exit, in the order of
the exits. -/
def lastSteps (graph : FlowGraph) (table : List Effects) (pointer : PointerSet) :
    List (Nat × Nat) :=
  (graph.exits table pointer).flatMap fun exit =>
    ((graph.predecessors exit).filter fun node => !restoresAt table pointer node).map fun node =>
      (node, exit)

/-- The nodes that the search starts from, in ascending order. -/
def seeds (graph : FlowGraph) (table : List Effects) (pointer : PointerSet) : List Nat :=
  ascending ((graph.lastSteps table pointer).map Prod.fst)

/-- A path on which the script exits with the pointer corrupted, if there is one. -/
def corruptionPath? (graph : FlowGraph) (table : List Effects) (pointer : PointerSet) :
    Option CorruptionPath := do
  let trail ← (graph.search (graph.seeds table pointer) (corruptsAt table pointer)
    (restoresAt table pointer)).found
  let exit ← (graph.lastSteps table pointer).lookup trail.last
  return { pointer, trail, exit }

end FlowGraph

end ScriptBackend

import ScriptBackend.Code.Slots

/-!
# Slot spaces

A table keeps its slots, where the latest slot of each name stands, and for each space how many
slots and how many parameters it has. Each is changed on its own when a variable takes a slot; that
they agree is an invariant of all that can be done with a table.

The slots of each space are numbered from zero without a gap, in the order in which they were taken,
and those of parameters come first. A parameter always takes a slot. A declared local takes one if
no variable of its name has one and changes nothing otherwise, so only parameters can share a name,
and then the latest is found. Slots are added behind those that are taken and never moved.
-/

namespace ScriptBackend

namespace LocalTable

variable {table : LocalTable}

/-- The slot of a name that was taken last. -/
def latest? (table : LocalTable) (name : String) : Option Slot :=
  table.slots.reverse.find? fun slot => slot.symbol.name = name

/-- Whether the places by name and the counters say what the slots say. -/
structure Coherent (table : LocalTable) : Prop where
  /-- A name leads to a slot that was taken. -/
  bounded : ∀ name position, table.byName.lookup name = some position →
    position < table.slots.length
  /-- A name leads to its latest slot. -/
  find? : ∀ name, table.find? name = table.latest? name
  /-- The slots of each space are counted. -/
  count : ∀ space, table.count space =
    table.slots.countP fun slot => slot.symbol.space = space
  /-- The parameters of each space are counted. -/
  parameterCount : ∀ space, table.parameterCount space =
    table.slots.countP fun slot => slot.symbol.space = space && slot.isParameter

section Take

variable (table) (symbol : LocalSymbol) (isParameter : Bool)

/-- Taking a slot adds one to the slots of its space. -/
@[simp] theorem count_take (space : StackType) :
    (table.take symbol isParameter).count space =
      table.count space + if symbol.space = space then 1 else 0 :=
  SpaceCounts.of_bump ..

/-- A parameter is counted among the slots of its space. -/
@[simp] theorem count_addParameter (space : StackType) :
    (table.addParameter symbol).count space =
      table.count space + if symbol.space = space then 1 else 0 :=
  SpaceCounts.of_bump ..

/-- A parameter is counted among the parameters of its space. -/
@[simp] theorem parameterCount_addParameter (space : StackType) :
    (table.addParameter symbol).parameterCount space =
      table.parameterCount space + if symbol.space = space then 1 else 0 :=
  SpaceCounts.of_bump ..

/-- A slot that is taken is the latest of its name, and no other name's. -/
theorem latest?_take (name : String) :
    (table.take symbol isParameter).latest? name =
      if symbol.name = name then some (table.nextSlot symbol isParameter)
      else table.latest? name := by
  simp only [latest?, take, List.reverse_append, List.reverse_singleton, List.singleton_append,
    List.find?_cons, nextSlot]
  split <;> simp_all

/-- The name of a variable that took a slot leads to that slot, and other names lead where they led
before. -/
theorem find?_take
    (h : ∀ name position, table.byName.lookup name = some position →
      position < table.slots.length) (name : String) :
    (table.take symbol isParameter).find? name =
      if symbol.name = name then some (table.nextSlot symbol isParameter)
      else table.find? name := by
  simp only [find?, take, lookup_assign]
  split
  · simp
  · cases hposition : table.byName.lookup name with
    | none => rfl
    | some position => exact List.getElem?_append_left (h name position hposition)

/-- Every name leads to a slot that was taken, also after one more was. -/
private theorem bounded_take
    (h : ∀ name position, table.byName.lookup name = some position →
      position < table.slots.length) (name : String) (position : Nat)
    (hposition : (table.take symbol isParameter).byName.lookup name = some position) :
    position < (table.take symbol isParameter).slots.length := by
  simp only [take, lookup_assign] at hposition
  simp only [take, List.length_append, List.length_singleton]
  split at hposition
  · cases hposition
    exact Nat.lt_succ_self _
  · exact Nat.lt_succ_of_lt (h name position hposition)

end Take

namespace Coherent

theorem empty : ({} : LocalTable).Coherent where
  bounded := by simp
  find? _ := rfl
  count space := by cases space <;> rfl
  parameterCount space := by cases space <;> rfl

/-- A local that takes a slot is told of everywhere. -/
private theorem take (h : table.Coherent) (symbol : LocalSymbol) :
    (table.take symbol false).Coherent where
  bounded := table.bounded_take symbol false h.bounded
  find? name := by rw [find?_take _ _ _ h.bounded, latest?_take, h.find?]
  count space := by
    rw [count_take, h.count]
    simp [LocalTable.take, nextSlot, List.countP_append, List.countP_singleton]
  parameterCount space := by
    refine (h.parameterCount space).trans ?_
    simp [LocalTable.take, nextSlot, List.countP_append]

/-- A parameter is told of everywhere. -/
theorem addParameter (h : table.Coherent) (symbol : LocalSymbol) :
    (table.addParameter symbol).Coherent where
  bounded := bounded_take _ symbol true h.bounded
  find? name :=
    calc (table.addParameter symbol).find? name
        = if symbol.name = name then some (table.nextSlot symbol true) else table.find? name :=
          find?_take _ symbol true h.bounded name
      _ = (table.addParameter symbol).latest? name := by
          rw [h.find?]
          exact (latest?_take _ symbol true name).symm
  count space := by
    rw [count_addParameter, h.count]
    simp [LocalTable.addParameter, LocalTable.take, nextSlot, List.countP_append,
      List.countP_singleton]
  parameterCount space := by
    rw [parameterCount_addParameter, h.parameterCount]
    simp [LocalTable.addParameter, LocalTable.take, nextSlot, List.countP_append,
      List.countP_singleton]

/-- A declared local is told of everywhere, if it takes a slot. -/
theorem addLocal (h : table.Coherent) (symbol : LocalSymbol) :
    (table.addLocal symbol).Coherent := by
  unfold LocalTable.addLocal
  split
  · exact h
  · exact h.take symbol

/-- A slot is found for a name exactly if a variable of that name has one. -/
theorem isSome_find?_iff (h : table.Coherent) {name : String} :
    (table.find? name).isSome = true ↔ ∃ slot ∈ table.slots, slot.symbol.name = name := by
  rw [h.find?]
  simp [latest?, List.find?_isSome]

/-- A name leads somewhere exactly if a slot is found for it. -/
theorem isSome_lookup (h : table.Coherent) (name : String) :
    (table.byName.lookup name).isSome = (table.find? name).isSome := by
  rw [LocalTable.find?]
  cases hposition : table.byName.lookup name with
  | none => rfl
  | some position => simp [h.bounded name position hposition]

/-- The slot of a name is one of the slots. -/
theorem mem_slots (h : table.Coherent) {name : String} {slot : Slot}
    (hslot : table.find? name = some slot) : slot ∈ table.slots :=
  List.mem_reverse.mp (List.mem_of_find?_eq_some (h.find? name ▸ hslot))

/-- A space has no more parameters than slots. -/
theorem parameterCount_le_count (h : table.Coherent) (space : StackType) :
    table.parameterCount space ≤ table.count space := by
  rw [h.parameterCount, h.count]
  exact List.countP_mono_left fun _ _ hslot => (Bool.and_eq_true_iff.mp hslot).1

/-- As long as there are parameters only, they are all slots of their space. -/
theorem parameterCount_eq_count (h : table.Coherent)
    (hall : ∀ slot ∈ table.slots, slot.isParameter = true) (space : StackType) :
    table.parameterCount space = table.count space := by
  rw [h.parameterCount, h.count]
  exact List.countP_congr fun slot hslot => by simp [hall slot hslot]

end Coherent

/-- The numbers of the slots of a space, in the order in which they were taken. -/
def indices (table : LocalTable) (space : StackType) : List Nat :=
  (table.slots.filter fun slot => slot.symbol.space = space).map Slot.index

/-- A slot that is added behind the others adds its number to those of its space. -/
private theorem indices_of_slots_eq {later : LocalTable} {slot : Slot}
    (h : later.slots = table.slots ++ [slot]) (space : StackType) :
    later.indices space =
      table.indices space ++ if slot.symbol.space = space then [slot.index] else [] := by
  by_cases hspace : slot.symbol.space = space
  · simp [indices, h, List.filter_append, hspace]
  · simp [indices, h, List.filter_append, hspace]

/-- Whether each space numbers its slots from zero in the order in which they were taken, and the
parameters first, and all parts of the table agree. -/
structure Numbered (table : LocalTable) : Prop extends Coherent table where
  indices : ∀ space, table.indices space = List.range (table.count space)
  parameters : ∀ slot ∈ table.slots,
    slot.isParameter = true ↔ slot.index < table.parameterCount slot.symbol.space

namespace Numbered

theorem empty : ({} : LocalTable).Numbered where
  toCoherent := .empty
  indices space := by cases space <;> rfl
  parameters := by simp

/-- The slot that comes next has the next number of its space. -/
private theorem indices_append (h : table.Numbered) {later : LocalTable} {symbol : LocalSymbol}
    {isParameter : Bool} (hslots : later.slots = table.slots ++ [table.nextSlot symbol isParameter])
    {space : StackType}
    (hcount : later.count space = table.count space + if symbol.space = space then 1 else 0) :
    later.indices space = List.range (later.count space) := by
  rw [indices_of_slots_eq hslots, hcount, h.indices space]
  by_cases hspace : symbol.space = space
  · simp [nextSlot, hspace, List.range_succ]
  · simp [nextSlot, hspace]

/-- While there are parameters only, one more parameter is numbered behind them. -/
theorem addParameter (h : table.Numbered) (hall : ∀ slot ∈ table.slots, slot.isParameter = true)
    (symbol : LocalSymbol) : (table.addParameter symbol).Numbered where
  toCoherent := h.toCoherent.addParameter symbol
  indices space := h.indices_append rfl (count_addParameter table symbol space)
  parameters slot hslot := by
    rw [parameterCount_addParameter]
    rcases List.mem_append.mp hslot with hold | hlast
    · have hlt := (h.parameters slot hold).mp (hall slot hold)
      exact iff_of_true (hall slot hold) (Nat.lt_add_right _ hlt)
    · obtain rfl := List.mem_singleton.mp hlast
      -- all slots of the space are parameters, so the next number is the number of parameters
      have hcount := h.parameterCount_eq_count hall symbol.space
      change true = true ↔ table.count symbol.space < _
      simp [nextSlot, hcount]

/-- A local that takes a slot is numbered behind all parameters of its space. -/
private theorem take (h : table.Numbered) (symbol : LocalSymbol) :
    (table.take symbol false).Numbered where
  toCoherent := h.toCoherent.take symbol
  indices space := h.indices_append rfl (count_take table symbol false space)
  parameters slot hslot := by
    change _ ↔ slot.index < table.parameterCount slot.symbol.space
    rcases List.mem_append.mp hslot with hold | hlast
    · exact h.parameters slot hold
    · obtain rfl := List.mem_singleton.mp hlast
      have hle := h.parameterCount_le_count symbol.space
      simpa [nextSlot] using hle

/-- A declared local keeps the numbering. -/
theorem addLocal (h : table.Numbered) (symbol : LocalSymbol) :
    (table.addLocal symbol).Numbered := by
  unfold LocalTable.addLocal
  split
  · exact h
  · exact h.take symbol

/-- Parameters are numbered in order. -/
private theorem addParameters (h : table.Numbered)
    (hall : ∀ slot ∈ table.slots, slot.isParameter = true) (parameters : List LocalSymbol) :
    (parameters.foldl LocalTable.addParameter table).Numbered := by
  induction parameters generalizing table with
  | nil => exact h
  | cons first rest ih =>
    refine ih (h.addParameter hall first) fun slot hslot => ?_
    rcases List.mem_append.mp hslot with hold | hlast
    · exact hall slot hold
    · rw [List.mem_singleton.mp hlast]
      rfl

/-- Every slot lies within its space. -/
theorem index_lt (h : table.Numbered) {slot : Slot} (hslot : slot ∈ table.slots) :
    slot.index < table.count slot.symbol.space := by
  have hindex : slot.index ∈ table.indices slot.symbol.space :=
    List.mem_map_of_mem (List.mem_filter.mpr ⟨hslot, by simp⟩)
  rwa [h.indices, List.mem_range] at hindex

/-- Whatever parameters and then locals are added, the table is numbered and its parts agree. -/
theorem ofSymbols (parameters locals : List LocalSymbol) :
    (LocalTable.ofSymbols parameters locals).Numbered :=
  List.foldlRecOn locals _ (empty.addParameters (by simp) parameters) fun _ h symbol _ =>
    h.addLocal symbol

end Numbered

/-- Declaring a name that has a slot changes nothing. -/
theorem Coherent.addLocal_eq_self (h : table.Coherent) {symbol : LocalSymbol}
    (hsymbol : ∃ slot ∈ table.slots, slot.symbol.name = symbol.name) :
    table.addLocal symbol = table := by
  rw [← h.isSome_find?_iff, ← h.isSome_lookup] at hsymbol
  obtain ⟨position, hposition⟩ := Option.isSome_iff_exists.mp hsymbol
  rw [LocalTable.addLocal, hposition]

/-- Declaring a name that has no slot takes one. -/
theorem Coherent.addLocal_eq_take (h : table.Coherent) {symbol : LocalSymbol}
    (hsymbol : ¬∃ slot ∈ table.slots, slot.symbol.name = symbol.name) :
    table.addLocal symbol = table.take symbol false := by
  rw [← h.isSome_find?_iff, ← h.isSome_lookup, Option.not_isSome_iff_eq_none] at hsymbol
  rw [LocalTable.addLocal, hsymbol]

/-- The names of the variables that have slots. -/
def names (table : LocalTable) : List String := table.slots.map fun slot => slot.symbol.name

end LocalTable

end ScriptBackend

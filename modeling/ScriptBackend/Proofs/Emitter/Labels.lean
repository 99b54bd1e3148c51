import Mathlib.Data.List.Perm.Basic
import Mathlib.Data.List.Nodup
import ScriptBackend.Emitter.Labels

/-!
# Supplied labels

A label of the supply determines the base name and the number it was made of, because a number
holds no underscore. So a label that the supply gives next was never given before, whatever base
names were asked for in between, and the labels that one part of a script takes are disjoint from
those of every part before it. All labels since a reset are different, and a reset repeats them.
-/

namespace ScriptBackend

/-- The label of a base name and a number. -/
def Label.numbered (base : String) (number : Nat) : Label := ⟨base ++ "_" ++ toString number⟩

/-- Text before a mark is determined when the mark does not occur after it. -/
private theorem append_cons_inj_of_not_mem {α : Type} {mark : α}
    {before before' after after' : List α}
    (h : before ++ mark :: after = before' ++ mark :: after') (hafter : mark ∉ after)
    (hafter' : mark ∉ after') : before = before' ∧ after = after' := by
  rcases List.append_eq_append_iff.mp h with ⟨middle, rfl, hmiddle⟩ | ⟨middle, rfl, hmiddle⟩
  · cases middle with
    | nil => simpa using hmiddle
    | cons first rest =>
      rw [List.cons_append, List.cons.injEq] at hmiddle
      exact absurd (hmiddle.2 ▸ List.mem_append_right rest List.mem_cons_self) hafter
  · cases middle with
    | nil => simpa using hmiddle.symm
    | cons first rest =>
      rw [List.cons_append, List.cons.injEq] at hmiddle
      exact absurd (hmiddle.2 ▸ List.mem_append_right rest List.mem_cons_self) hafter'

namespace Label

private theorem toList_numbered (base : String) (number : Nat) :
    (numbered base number).name.toList = base.toList ++ '_' :: Nat.toDigits 10 number := by
  simp [numbered]

/-- A numbered label has one base name and one number. -/
theorem numbered_inj {base base' : String} {number number' : Nat} :
    numbered base number = numbered base' number' ↔ base = base' ∧ number = number' := by
  constructor
  · intro h
    have hlist := congrArg (fun label : Label => label.name.toList) h
    simp only [toList_numbered] at hlist
    obtain ⟨hbase, hdigits⟩ := append_cons_inj_of_not_mem hlist
      Nat.underscore_not_in_toDigits Nat.underscore_not_in_toDigits
    have hnumber := congrArg (fun digits => Nat.ofDigitChars 10 digits 0) hdigits
    exact ⟨String.toList_inj.mp hbase, by simpa using hnumber⟩
  · rintro ⟨rfl, rfl⟩
    rfl

/-- The entry label is no numbered label. -/
theorem numbered_ne_entry (base : String) (number : Nat) : numbered base number ≠ entry := by
  intro h
  have hmem : '_' ∈ (numbered base number).name.toList := by simp [toList_numbered]
  rw [h] at hmem
  exact absurd hmem (by decide)

end Label

namespace LabelSupply

/-- Whether a supply has given a label. -/
def Issued (supply : LabelSupply) (label : Label) : Prop :=
  ∃ base number, number < supply.issued.count base ∧ label = .numbered base number

/-- The label that comes next was not given before. -/
theorem not_issued_next (supply : LabelSupply) (base : String) :
    ¬ supply.Issued (supply.next base) := by
  rintro ⟨other, number, hlt, heq⟩
  obtain ⟨rfl, rfl⟩ := Label.numbered_inj.mp (show Label.numbered base _ = _ from heq)
  exact Nat.lt_irrefl _ hlt

/-- A label that was taken is given. -/
theorem issued_take_next (supply : LabelSupply) (base : String) :
    (supply.take base).Issued (supply.next base) :=
  ⟨base, supply.issued.count base, by simp [take], rfl⟩

/-- A label that was given stays given. -/
theorem Issued.take {supply : LabelSupply} {label : Label} (h : supply.Issued label)
    (base : String) : (supply.take base).Issued label := by
  obtain ⟨other, number, hlt, rfl⟩ := h
  exact ⟨other, number, Nat.lt_of_lt_of_le hlt (List.count_le_count_cons ..), rfl⟩

/-- No supply gives the entry label. -/
theorem not_issued_entry (supply : LabelSupply) : ¬ supply.Issued .entry := by
  rintro ⟨base, number, _, heq⟩
  exact Label.numbered_ne_entry base number heq.symm

/-- Some labels, no two the same, are given between two states of a supply. -/
structure Gives (before after : LabelSupply) (labels : List Label) : Prop where
  /-- No label is given twice. -/
  nodup : labels.Nodup
  /-- No label was given before. -/
  unissued : ∀ label ∈ labels, ¬ before.Issued label
  /-- Every label is given afterwards. -/
  issued : ∀ label ∈ labels, after.Issued label
  /-- What was given before stays given. -/
  mono : ∀ label, before.Issued label → after.Issued label

namespace Gives

variable {before middle after : LabelSupply} {first second : List Label}

/-- Nothing is given while the supply stays as it is. -/
theorem refl (supply : LabelSupply) : Gives supply supply [] :=
  ⟨List.nodup_nil, by simp, by simp, fun _ h => h⟩

/-- Taking a label gives it. -/
theorem take (supply : LabelSupply) (base : String) :
    Gives supply (supply.take base) [supply.next base] :=
  ⟨List.nodup_singleton _, by simpa using supply.not_issued_next base,
    by simpa using supply.issued_take_next base, fun _ h => h.take base⟩

/-- What is given first is disjoint from what is given next. -/
theorem append (hfirst : Gives before middle first) (hsecond : Gives middle after second) :
    Gives before after (first ++ second) := by
  refine ⟨?_, ?_, ?_, fun label h => hsecond.mono label (hfirst.mono label h)⟩
  · refine List.nodup_append.mpr ⟨hfirst.nodup, hsecond.nodup, ?_⟩
    rintro label hlabel _ hlabel' rfl
    exact hsecond.unissued label hlabel' (hfirst.issued label hlabel)
  · intro label hlabel hissued
    rcases List.mem_append.mp hlabel with h | h
    · exact hfirst.unissued label h hissued
    · exact hsecond.unissued label h (hfirst.mono label hissued)
  · intro label hlabel
    rcases List.mem_append.mp hlabel with h | h
    · exact hsecond.mono label (hfirst.issued label h)
    · exact hsecond.issued label h

/-- Taking labels of base names in order gives them. -/
theorem takeAll (supply : LabelSupply) (bases : List String) :
    Gives supply (bases.foldl LabelSupply.take supply) (supply.takeAll bases) := by
  induction bases generalizing supply with
  | nil => exact refl supply
  | cons base rest ih => exact (take supply base).append (ih (supply.take base))

end Gives

/-- A label of a base is numbered by how often the base was asked for before it. -/
theorem getElem?_takeAll (supply : LabelSupply) (before : List String) (base : String)
    (after : List String) :
    (supply.takeAll (before ++ base :: after))[before.length]? =
      some (.numbered base (supply.issued.count base + before.count base)) := by
  induction before generalizing supply with
  | nil => rfl
  | cons first rest ih =>
    -- the first base name counts as asked for when the rest are taken
    refine (ih (supply.take first)).trans ?_
    simp only [take, List.count_cons]
    rw [Nat.add_right_comm, Nat.add_assoc]

/-- Every base name gets one label. -/
theorem length_takeAll (supply : LabelSupply) (bases : List String) :
    (supply.takeAll bases).length = bases.length := by
  induction bases generalizing supply with
  | nil => rfl
  | cons base rest ih => exact congrArg (· + 1) (ih (supply.take base))

/-- The labels that are taken since a reset, whatever the base names are: each base name gets a
label, no two labels are the same and none is the entry label. The label of a base has the number of
labels of that base before it, and after another reset the same base names get the same labels. -/
theorem takeAll_reset (supply : LabelSupply) (bases : List String) :
    let labels := supply.reset.takeAll bases
    labels.length = bases.length ∧ labels.Nodup ∧ .entry ∉ labels ∧
      (∀ before base after, bases = before ++ base :: after →
        labels[before.length]? = some (.numbered base (before.count base))) ∧
      ∀ later : LabelSupply, later.reset.takeAll bases = labels := by
  intro labels
  have hgives := Gives.takeAll supply.reset bases
  refine ⟨length_takeAll _ bases, hgives.nodup, fun hentry => ?_, ?_, fun later => rfl⟩
  · exact not_issued_entry _ (hgives.issued _ hentry)
  · rintro before base after rfl
    rw [getElem?_takeAll, show supply.reset.issued.count base = 0 from rfl, Nat.zero_add]

end LabelSupply

end ScriptBackend

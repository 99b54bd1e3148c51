/-!
# Values by name

A list of names with their values stands for what is known by name, each name once. A value that is
given to a name takes the place of the one that the name had.
-/

namespace ScriptBackend

/-- The values with one given to a name, in place of any earlier one. -/
def assign {α : Type} (entries : List (String × α)) (name : String) (value : α) :
    List (String × α) :=
  (name, value) :: entries.filter fun entry => entry.1 ≠ name

/-- A lookup passes over every entry of another name that is left out. -/
private theorem lookup_filter_ne {α : Type} {name other : String} (h : other ≠ name)
    (entries : List (String × α)) :
    (entries.filter fun entry => entry.1 ≠ name).lookup other = entries.lookup other := by
  induction entries with
  | nil => rfl
  | cons entry rest ih =>
    by_cases hentry : entry.1 = name
    · have hne : (other == entry.1) = false := beq_false_of_ne (hentry ▸ h)
      rw [List.filter_cons_of_neg (by simp [hentry]), ih, List.lookup_cons, hne]
    · rw [List.filter_cons_of_pos (by simp [hentry]), List.lookup_cons, List.lookup_cons, ih]

/-- A name has the value that it was last given; every other name has the one that it had. -/
theorem lookup_assign {α : Type} (entries : List (String × α)) (name : String) (value : α)
    (other : String) :
    (assign entries name value).lookup other =
      if name = other then some value else entries.lookup other := by
  by_cases h : name = other
  · subst h
    simp [assign]
  · rw [if_neg h, assign, List.lookup_cons, beq_false_of_ne (Ne.symm h)]
    exact lookup_filter_ne (Ne.symm h) entries

end ScriptBackend

import ScriptBackend.Code.Instruction

/-!
# Label supply

Fresh labels are a base name, an underscore and a number that counts the labels of that base. The
supply remembers the base names it was asked for, so the number is how often the name was asked for
before. Every script resets the supply. The entry label has no number and is never supplied.
-/

namespace ScriptBackend

/-- The label of the first block of every script. -/
def Label.entry : Label := ⟨"entry"⟩

/-- The base names of the labels supplied so far. -/
structure LabelSupply where
  /-- The base names, the latest first. -/
  issued : List String := []
  deriving DecidableEq, Repr

namespace LabelSupply

/-- The label that a base name gets next. -/
def next (supply : LabelSupply) (base : String) : Label :=
  ⟨base ++ "_" ++ toString (supply.issued.count base)⟩

/-- The supply after a label of a base name was taken. -/
def take (supply : LabelSupply) (base : String) : LabelSupply := ⟨base :: supply.issued⟩

/-- The supply that counts every base name from zero again. -/
def reset (_ : LabelSupply) : LabelSupply := {}

/-- The labels of some base names, taken in order. -/
def takeAll (supply : LabelSupply) : List String → List Label
  | [] => []
  | base :: rest => supply.next base :: (supply.take base).takeAll rest

/-- Taking a label of one base leaves the next label of every other base as it was. -/
theorem next_take_of_ne {supply : LabelSupply} {base other : String} (h : other ≠ base) :
    (supply.take base).next other = supply.next other := by
  simp [next, take, List.count_cons_of_ne (Ne.symm h)]

end LabelSupply

end ScriptBackend

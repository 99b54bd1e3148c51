import ScriptBackend.Symbol.Basic

/-!
# Scopes

A scope finds symbols by name. It is asked only for names that a tree left unresolved. The first
symbol of a name keeps it: inserting another of the same name changes nothing.
-/

namespace ScriptBackend

/-- Symbols by name. -/
structure Scope where
  /-- The symbols in order of insertion, no two of one name. -/
  symbols : List Symbol := []
  deriving Repr

namespace Scope

/-- The symbol of a name. -/
def find? (scope : Scope) (name : String) : Option Symbol :=
  scope.symbols.find? fun symbol => symbol.name = name

/-- Insert a symbol under its own name; a name that is taken keeps its symbol. -/
def insert (scope : Scope) (symbol : Symbol) : Scope :=
  if (scope.find? symbol.name).isSome then scope else ⟨scope.symbols ++ [symbol]⟩

/-- Whether a symbol could still be inserted. -/
def isFree (scope : Scope) (symbol : Symbol) : Bool := (scope.find? symbol.name).isNone

/-- The scope of some symbols, inserted in order. -/
def ofList (symbols : List Symbol) : Scope := symbols.foldl insert {}

/-- The number of symbols. -/
def size (scope : Scope) : Nat := scope.symbols.length

/-- Whether the scope has no symbol. -/
def isEmpty (scope : Scope) : Bool := scope.symbols.isEmpty

/-- After an insertion the name is found, as the symbol that first took it. -/
theorem find?_insert_self (scope : Scope) (symbol : Symbol) :
    (scope.insert symbol).find? symbol.name =
      some ((scope.find? symbol.name).getD symbol) := by
  unfold insert
  cases h : scope.find? symbol.name with
  | some found => simp [h]
  | none =>
    have hnone := h
    simp only [find?] at hnone ⊢
    simp [List.find?_append, hnone]

/-- Inserting a symbol leaves every other name as it was. -/
theorem find?_insert_of_ne (scope : Scope) {symbol : Symbol} {name : String}
    (h : symbol.name ≠ name) : (scope.insert symbol).find? name = scope.find? name := by
  unfold insert
  split
  · rfl
  · simp [find?, List.find?_append, h]

end Scope

end ScriptBackend

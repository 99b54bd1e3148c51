/-!
# Source positions

A position is the line and column at which a node of a tree starts. Line zero marks a position that
is not known.
-/

namespace ScriptBackend

/-- A position in a source file, counted from one. -/
structure Span where
  /-- Line number; zero when the position is not known. -/
  line : Nat
  /-- Column number. -/
  col : Nat
  deriving DecidableEq, Repr

namespace Span

/-- The position that is not known. -/
def unknown : Span := ⟨0, 0⟩

/-- The start of a line. -/
def ofLine (line : Nat) : Span := ⟨line, 1⟩

/-- A position is known when its line is. -/
def isKnown (span : Span) : Bool := span.line != 0

/-- A position reads as line and column around a colon. -/
def text (span : Span) : String := toString span.line ++ ":" ++ toString span.col

/-- Exactly line zero is not known. -/
@[simp] theorem isKnown_iff {span : Span} : span.isKnown = true ↔ span.line ≠ 0 := by
  simp [isKnown]

end Span

end ScriptBackend

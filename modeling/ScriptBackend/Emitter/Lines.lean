import ScriptBackend.Code.Instruction

/-!
# Line markers

The line tracker gives a marker for a position only when markers are wanted, the position is known
and its line differs from the line marked last.
-/

namespace ScriptBackend

/-- Which line was marked last, and whether lines are marked at all. -/
structure LineTracker where
  /-- Whether lines are marked. -/
  enabled : Bool
  /-- The line marked last. -/
  last : Option Nat := none
  deriving DecidableEq, Repr

namespace LineTracker

/-- Forget the line marked last. -/
def reset (tracker : LineTracker) : LineTracker := { tracker with last := none }

/-- Whether a position starts a line that is not marked yet. -/
def isNewLine (tracker : LineTracker) (span : Span) : Bool :=
  tracker.enabled && span.isKnown && tracker.last != some span.line

/-- The marker of a position, if it needs one. -/
def marker? (tracker : LineTracker) (span : Span) : Option Instruction :=
  if tracker.isNewLine span then
    some { opcode := .lineNumber, operand := .line span.line, span := some span }
  else none

/-- The tracker after a position was marked where needed. -/
def mark (tracker : LineTracker) (span : Span) : LineTracker :=
  if tracker.isNewLine span then { tracker with last := some span.line } else tracker

/-- A position that was just marked needs no second marker. -/
theorem marker?_mark (tracker : LineTracker) (span : Span) :
    (tracker.mark span).marker? span = none := by
  unfold marker? mark
  cases h : tracker.isNewLine span with
  | false => simp [h]
  | true => simp [isNewLine]

end LineTracker

end ScriptBackend

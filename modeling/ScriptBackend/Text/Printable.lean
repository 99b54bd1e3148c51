import ScriptBackend.Text.Marks
import ScriptBackend.Text.Unassigned

/-!
# Printable characters

A character is printable when it has a visible form that stands alone. Controls, format characters,
private-use characters, separators other than the space, the fillers that are ignored by default and
code points without a character have no visible form; extending marks have one that is drawn onto
the character before them.
-/

namespace ScriptBackend.Text

/-- Ranges of the control characters. -/
def controlRanges : List (Nat × Nat) := [
  (0x0, 0x1F), (0x7F, 0x9F)]

/-- Ranges of the format characters. -/
def formatRanges : List (Nat × Nat) := [
  (0xAD, 0xAD), (0x600, 0x605), (0x61C, 0x61C), (0x6DD, 0x6DD), (0x70F, 0x70F), (0x890, 0x891),
  (0x8E2, 0x8E2), (0x180E, 0x180E), (0x200B, 0x200F), (0x202A, 0x202E), (0x2060, 0x2064),
  (0x2066, 0x206F), (0xFEFF, 0xFEFF), (0xFFF9, 0xFFFB), (0x110BD, 0x110BD), (0x110CD, 0x110CD),
  (0x13430, 0x1343F), (0x1BCA0, 0x1BCA3), (0x1D173, 0x1D17A), (0xE0001, 0xE0001),
  (0xE0020, 0xE007F)]

/-- Ranges of the space, line and paragraph separators other than the space itself. -/
def separatorRanges : List (Nat × Nat) := [
  (0xA0, 0xA0), (0x1680, 0x1680), (0x2000, 0x200A), (0x2028, 0x2029), (0x202F, 0x202F),
  (0x205F, 0x205F), (0x3000, 0x3000)]

/-- Ranges of the private-use characters. -/
def privateUseRanges : List (Nat × Nat) := [
  (0xE000, 0xF8FF), (0xF0000, 0xFFFFD), (0x100000, 0x10FFFD)]

/-- Ranges of the letters that are ignored by default: the fillers of Korean syllables. -/
def fillerRanges : List (Nat × Nat) := [
  (0x115F, 0x1160), (0x3164, 0x3164), (0xFFA0, 0xFFA0)]

/-- The classes of characters that are not printable. -/
def hiddenClasses : List (List (Nat × Nat)) :=
  [controlRanges, formatRanges, separatorRanges, privateUseRanges, fillerRanges,
    extendingMarkRanges, unassignedRanges]

/-- A character is printable when it is in no class of characters that are not. -/
def isPrintable (c : Char) : Bool :=
  !hiddenClasses.any fun ranges => inRanges ranges c.toNat

/-- A character is printable exactly when no class of hidden characters spans it. -/
theorem isPrintable_iff {c : Char} :
    isPrintable c = true ↔ ∀ ranges ∈ hiddenClasses, inRanges ranges c.toNat = false := by
  simp [isPrintable]

/-- The characters from the space to the tilde are printable. -/
theorem isPrintable_of_ascii {c : Char} (hlow : 0x20 ≤ c.toNat) (hhigh : c.toNat ≤ 0x7E) :
    isPrintable c = true := by
  have hapart : ∀ ranges ∈ hiddenClasses, ∀ range ∈ ranges, range.2 < 0x20 ∨ 0x7E < range.1 := by
    decide +kernel
  rw [isPrintable_iff]
  intro ranges hranges
  rw [Bool.eq_false_iff]
  intro hin
  obtain ⟨range, hrange, hstart, hend⟩ := inRanges_iff.mp hin
  have := hapart ranges hranges range hrange
  omega

end ScriptBackend.Text

import ScriptBackend.Text.Printable

/-!
# Quoted text

A text shown inside a listing stands between double quotes. The quote and the backslash are
escaped by a backslash, four controls have a letter of their own, and every other character that
is not printable is written by its code point in lower-case hexadecimal between braces. All other
characters, the single quote included, stand for themselves.
-/

namespace ScriptBackend.Text

/-- The lower-case hexadecimal digits of a number, without leading zeros. -/
def hexDigits (n : Nat) : List Char := Nat.toDigits 16 n

/-- How one character is written between quotes. -/
def quoteChar (c : Char) : List Char :=
  if c = '"' then ['\\', '"']
  else if c = '\\' then ['\\', '\\']
  else if c = '\t' then ['\\', 't']
  else if c = '\n' then ['\\', 'n']
  else if c = '\r' then ['\\', 'r']
  else if c = '\x00' then ['\\', '0']
  else if isPrintable c then [c]
  else ['\\', 'u', '\x7b'] ++ hexDigits c.toNat ++ ['\x7d']

/-- The text between double quotes, each character written by `quoteChar`. -/
def quote (text : String) : String :=
  String.ofList ('"' :: text.toList.flatMap quoteChar ++ ['"'])

/-- A printable character other than the quote and the backslash is written as itself. -/
theorem quoteChar_of_isPrintable {c : Char} (hc : isPrintable c = true) (hq : c ≠ '"')
    (hb : c ≠ '\\') : quoteChar c = [c] := by
  have ht : c ≠ '\t' := by rintro rfl; revert hc; decide
  have hn : c ≠ '\n' := by rintro rfl; revert hc; decide
  have hr : c ≠ '\r' := by rintro rfl; revert hc; decide
  have hz : c ≠ '\x00' := by rintro rfl; revert hc; decide
  simp [quoteChar, hc, hq, hb, ht, hn, hr, hz]

end ScriptBackend.Text

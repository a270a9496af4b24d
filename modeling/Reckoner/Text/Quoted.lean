import Reckoner.Text.Printable

namespace Reckoner.Text

/-!
# Quoted text

How a text is shown inside a message: between quotes, on one line, with every character that has
no printed form written by its code.

Main definitions:
* `quoteFor`: the quote that surrounds a text
* `escapeChar`: how one character is written between quotes
* `quoted`: a text in quotes

Main statement: `escapeChar_of_plain` (a printable character that is neither the backslash nor the
quote stands for itself).
-/

/-- The last `width` hexadecimal digits of a number, in lower case. -/
def hexDigits : (width : Nat) → Nat → List Char
  | 0, _ => []
  | width + 1, n => hexDigits width (n / 16) ++ [Nat.digitChar (n % 16)]

/-- Single quotes, or double quotes if that saves the escaping of single ones. -/
def quoteFor (cs : List Char) : Char :=
  if cs.contains '\'' && !cs.contains '"' then '"' else '\''

/-- A character between the given quotes: the backslash and the quote behind a backslash, the three
    usual controls by name, and what has no printed form by the shortest of three code forms. -/
def escapeChar (quote : Char) (c : Char) : List Char :=
  if c = quote || c = '\\' then ['\\', c]
  else if c = '\n' then ['\\', 'n']
  else if c = '\r' then ['\\', 'r']
  else if c = '\t' then ['\\', 't']
  else if isPrintable c then [c]
  else if c.toNat < 0x100 then '\\' :: 'x' :: hexDigits 2 c.toNat
  else if c.toNat < 0x10000 then '\\' :: 'u' :: hexDigits 4 c.toNat
  else '\\' :: 'U' :: hexDigits 8 c.toNat

/-- What is printable and means nothing between quotes stands for itself. -/
theorem escapeChar_of_plain {quote c : Char} (printable : isPrintable c = true) (hq : c ≠ quote)
    (hb : c ≠ '\\') : escapeChar quote c = [c] := by
  have hcontrol : c ≠ '\n' ∧ c ≠ '\r' ∧ c ≠ '\t' := by
    refine ⟨?_, ?_, ?_⟩ <;> (intro h; subst h; revert printable; decide)
  simp [escapeChar, hq, hb, hcontrol, printable]

/-- The characters of a text in quotes. -/
def quotedChars (cs : List Char) : List Char :=
  let quote := quoteFor cs
  quote :: cs.flatMap (escapeChar quote) ++ [quote]

/-- A text in quotes. -/
def quoted (s : String) : String := String.ofList (quotedChars s.toList)

end Reckoner.Text

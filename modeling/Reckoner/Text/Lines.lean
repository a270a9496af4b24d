import Reckoner.Text.Blank

namespace Reckoner.Text

/-!
# The lines of a text

A text is cut at every line break; a carriage return directly before a line feed belongs to the
same break.  A break ends a line, so nothing follows the last one.

Main definitions:
* `isLineBreak`: the characters that end a line
* `splitLines`: the lines of a text, without their breaks

Main statement: `isBlank_of_isLineBreak` (every line break is blank).
-/

/-- The line breaks as ranges of code points. -/
def lineBreakRanges : List (Nat × Nat) :=
  [(0x0A, 0x0D), (0x1C, 0x1E), (0x85, 0x85), (0x2028, 0x2029)]

/-- A character that ends a line. -/
def isLineBreak (c : Char) : Bool := inRanges lineBreakRanges c

/-- Line breaks are blank. -/
theorem isBlank_of_isLineBreak (c : Char) (h : isLineBreak c = true) : isBlank c = true := by
  simp only [isLineBreak, isBlank, inRanges, lineBreakRanges, blankRanges, List.any_cons,
    List.any_nil, Bool.or_false, Bool.or_eq_true, Bool.and_eq_true, decide_eq_true_eq] at h ⊢
  omega

/-- The lines of a text.  A character that is no break belongs to the first line of what follows
    it. -/
def splitLines : List Char → List (List Char)
  | [] => []
  | '\r' :: '\n' :: rest => [] :: splitLines rest
  | c :: rest =>
    if isLineBreak c then [] :: splitLines rest
    else match splitLines rest with
      | [] => [[c]]
      | line :: lines => (c :: line) :: lines

end Reckoner.Text

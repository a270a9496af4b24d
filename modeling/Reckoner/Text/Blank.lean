namespace Reckoner.Text

/-!
# Blank characters

The white space of statements and statement files: the characters that are skipped inside a
statement and stripped from both ends of a line.

Main definitions:
* `isBlank`: the class of blank characters
* `isSpace`: the blanks that may surround a numeral
* `compact`: a text without its blanks
* `trim`: a text without the blanks at its ends
-/

/-- A code point lies in one of the closed ranges. -/
def inRanges (ranges : List (Nat × Nat)) (c : Char) : Bool :=
  ranges.any fun r => r.1 ≤ c.toNat && c.toNat ≤ r.2

/-- The blanks as ranges of code points: the Unicode white-space property together with the four
    information separators U+001C to U+001F. -/
def blankRanges : List (Nat × Nat) :=
  [(0x09, 0x0D), (0x1C, 0x20), (0x85, 0x85), (0xA0, 0xA0), (0x1680, 0x1680), (0x2000, 0x200A),
    (0x2028, 0x2029), (0x202F, 0x202F), (0x205F, 0x205F), (0x3000, 0x3000)]

/-- A blank character. -/
def isBlank (c : Char) : Bool := inRanges blankRanges c

/-- The Unicode white-space property: the blanks but for the four information separators.  These are
    the blanks that may surround a numeral. -/
def isSpace (c : Char) : Bool := isBlank c && !(0x1C ≤ c.toNat && c.toNat ≤ 0x1F)

/-- The characters that are not blank, in order. -/
def compact (cs : List Char) : List Char := cs.filter fun c => !isBlank c

/-- The characters between the blanks at both ends, where `blank` says what is stripped. -/
def trimBy (blank : Char → Bool) (cs : List Char) : List Char :=
  ((cs.dropWhile blank).reverse.dropWhile blank).reverse

/-- The characters between the blanks at both ends. -/
def trim (cs : List Char) : List Char := trimBy isBlank cs

end Reckoner.Text

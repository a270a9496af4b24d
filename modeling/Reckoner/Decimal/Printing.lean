import Reckoner.Binary64.Arithmetic

namespace Reckoner.Decimal

/-!
# Decimal text of binary64 numbers

Main definitions:
* `lastDigits`: a given number of final decimal digits, zeros included
* `fixed`: a quotient with a fixed number of decimal places, a tie in the last place going to the
  even digit
* `dropTrailingZeros`: a text without the zeros at its end, and without a point that is left there
-/

/-- The last `places` decimal digits of a number. -/
def lastDigits : (places : Nat) → Nat → List Char
  | 0, _ => []
  | places + 1, n => lastDigits places (n / 10) ++ [Nat.digitChar (n % 10)]

/-- There are as many digits as places. -/
@[simp] theorem length_lastDigits (places n : Nat) : (lastDigits places n).length = places := by
  induction places generalizing n with
  | zero => rfl
  | succ places ih => simp [lastDigits, ih]

/-- The quotient `n / d`, rounded to `places` decimal places and written without an exponent. -/
def fixed (places : Nat) (n d : Nat) : List Char :=
  let scaled := nearestEven (n * 10 ^ places) d
  let whole := Nat.toDigits 10 (scaled / 10 ^ places)
  if places = 0 then whole else whole ++ '.' :: lastDigits places scaled

/-- A text without the zeros at its end and then without the point at its end. -/
def dropTrailingZeros (cs : List Char) : List Char :=
  ((cs.reverse.dropWhile (· = '0')).dropWhile (· = '.')).reverse

end Reckoner.Decimal

import Reckoner.Binary64.Basic
import Reckoner.Text.Digit

namespace Reckoner.Decimal

/-!
# Reading decimal numerals

A numeral is a sign, which may be missing, and either one of the words for an infinity and the
not-a-number, or digits with a point and an exponent, both of which may be missing.  The value is
the double nearest to the number that the numeral denotes.

Main definitions:
* `Style`: which characters are digits, and whether underscores may group them
* `digitRun`: the digits at the front of a text
* `integer?`: the integer of a numeral without point and exponent
* `number?`: the double of a numeral
* `nearest`: the double nearest to a decimal fraction
-/

/-- How digits may be written. -/
structure Style where
  /-- The value of a digit. -/
  digit? : Char → Option Nat
  /-- Whether a single underscore may stand between two digits. -/
  grouping : Bool

/-- Digits of every script, which underscores may group. -/
def Style.anyScript : Style := ⟨Text.digitValue?, true⟩

/-- ASCII digits without grouping. -/
def Style.ascii : Style := ⟨Text.asciiDigit?, false⟩

/-! ### Digits -/

/-- The digits at the front of a text and what follows them; `after` says that a digit stands
    directly before the text, so that an underscore may come first. -/
def digitRun (style : Style) : (after : Bool) → List Char → List Nat × List Char
  | _, [] => ([], [])
  | after, c :: rest =>
    match style.digit? c with
    | some d =>
      let (ds, remaining) := digitRun style true rest
      (d :: ds, remaining)
    | none =>
      if c = '_' ∧ after ∧ style.grouping ∧ (rest.head?.bind style.digit?).isSome then
        digitRun style false rest
      else ([], c :: rest)

/-- The number that digits denote. -/
def ofDigits (ds : List Nat) : Nat := ds.foldl (fun n d => 10 * n + d) 0

/-- A sign at the front of a text, and what follows it. -/
def sign : List Char → Bool × List Char
  | '-' :: rest => (true, rest)
  | '+' :: rest => (false, rest)
  | rest => (false, rest)

/-- The longest integer numeral that is accepted, in digits. -/
def longestInteger : Nat := 4300

/-- The integer that a whole text denotes. -/
def integer? (style : Style) (cs : List Char) : Option Int :=
  let (negative, rest) := sign cs
  match digitRun style false rest with
  | (ds, []) =>
    if ds = [] ∨ longestInteger < ds.length then none
    else some (if negative then -(ofDigits ds : Int) else ofDigits ds)
  | _ => none

/-! ### Fractions and exponents -/

/-- The double nearest to `n * 10 ^ exponent` with the given sign. -/
def nearest (negative : Bool) (n : Nat) (exponent : Int) : Binary64 :=
  Binary64.round negative (n * 10 ^ exponent.toNat * Binary64.perOne) (10 ^ (-exponent).toNat)

/-- An exponent at the front of a text, and what follows it.  A mark without digits is no exponent
    and stays. -/
def exponent (style : Style) : List Char → (Bool × List Nat) × List Char
  | [] => ((false, []), [])
  | c :: rest =>
    if c = 'e' ∨ c = 'E' then
      let (negative, unsigned) := sign rest
      match digitRun style false unsigned with
      | ([], _) => ((false, []), c :: rest)
      | (ds, remaining) => ((negative, ds), remaining)
    else ((false, []), c :: rest)

/-- The double of a whole text of digits, with or without a point and an exponent.  An exponent
    beyond `bound` gives the same zero or infinity as `bound`, whatever the digits are. -/
def magnitude? (style : Style) (negative : Bool) (cs : List Char) : Option Binary64 :=
  let (whole, rest) := digitRun style false cs
  let (fraction, rest) := match rest with
    | '.' :: more => digitRun style false more
    | rest => ([], rest)
  let digits := whole ++ fraction
  match exponent style rest with
  | ((below, ds), []) =>
    if digits = [] then none
    else
      let bound := digits.length + 400
      let size := min (ofDigits ds) bound
      let shift : Int := if below then -(size : Int) else size
      some (nearest negative (ofDigits digits) (shift - fraction.length))
  | _ => none

/-- The double that a whole text denotes. -/
def number? (style : Style) (cs : List Char) : Option Binary64 :=
  let (negative, rest) := sign cs
  let word := String.ofList (rest.map Char.toLower)
  if word = "inf" ∨ word = "infinity" then some (.infinity negative)
  else if word = "nan" then some .nan
  else magnitude? style negative rest

end Reckoner.Decimal

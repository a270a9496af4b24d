import Reckoner.Decimal.Printing

namespace Reckoner

/-!
# Display of results

An integral result is shown as an integer of any size, any other one rounded to at most a given
number of decimal places, a half going up, without zeros at the end and never with an exponent.

Main definitions:
* `Precision`: the number of decimal places that are kept
* `NonFinite`, `NonFinite.ofValue?`: the results that cannot be shown
* `Display.roundedHalfUp`: a number with the given number of places
* `Display.format`: the text of a result
-/

/-- A number of decimal places, at most fifteen. -/
abbrev Precision := Fin 16

/-- Four places are kept unless something else is asked for. -/
def Precision.standard : Precision := 4

/-- A value that is no finite number. -/
inductive NonFinite where
  | nan
  | infinity (negative : Bool)
  deriving DecidableEq, Repr

namespace NonFinite

/-- What a value is that is no finite number. -/
def ofValue? : Binary64 → Option NonFinite
  | .nan => some .nan
  | .infinity negative => some (.infinity negative)
  | .finite _ _ _ => none

/-- The word for the value. -/
def text : NonFinite → String
  | .nan => "nan"
  | .infinity true => "-inf"
  | .infinity false => "inf"

/-- What is said when the value should be shown as a number. -/
def message : NonFinite → String
  | .nan => "cannot convert float NaN to integer"
  | .infinity _ => "cannot convert float infinity to integer"

end NonFinite

namespace Display

/-- The double nearest to `⌊x * 10 ^ p + 1 / 2⌋ / 10 ^ p`, which is `x` rounded to `p` places, a half
    going up.  The product and the sum are doubles too.  An infinity and the not-a-number have no
    floor and stay. -/
def roundedHalfUp (p : Precision) (x : Binary64) : Binary64 :=
  let scaled := (x.mul (Binary64.ofInt (10 ^ p.val))).add Binary64.half
  match scaled.floor? with
  | some n => Binary64.ofRatio n (10 ^ p.val)
  | none => scaled

/-- The text of a finite number with a fractional part, with at most the given places. -/
def fractionText (p : Precision) (negative : Bool) (units : Nat) : String :=
  let digits := Decimal.fixed p.val units Binary64.perOne
  String.ofList (Decimal.dropTrailingZeros (if negative then '-' :: digits else digits))

/-- The text of an integral number. -/
def integerText (negative : Bool) (units : Nat) : String :=
  toString (Binary64.signed negative units / (Binary64.perOne : Int))

/-- The text of a finite number, without a point if it is integral. -/
def finiteText (p : Precision) (negative : Bool) (units : Nat) : String :=
  if units % Binary64.perOne = 0 then integerText negative units
  else fractionText p negative units

/-- The text of a result. -/
def format (p : Precision) (x : Binary64) : Except NonFinite String :=
  match if x.isIntegral then x else roundedHalfUp p x with
  | .nan => .error .nan
  | .infinity negative => .error (.infinity negative)
  | .finite negative units _ => .ok (finiteText p negative units)

end Display

end Reckoner

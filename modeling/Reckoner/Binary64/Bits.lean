import Reckoner.Binary64.Basic

namespace Reckoner.Binary64

/-!
# The bit pattern of a binary64 number

The interchange format: one sign bit, eleven exponent bits and fifty-two fraction bits.  Every
pattern of the not-a-number is read as the one not-a-number, which has no pattern of its own.

Main definitions:
* `Binary64.ofBits`: the number a pattern stands for
* `Binary64.toBits?`: the pattern of a number
-/

/-- The weight of the sign bit. -/
def signWeight : Nat := 2 ^ (63 : Nat)

/-- The weight of the lowest exponent bit, which is the number of all fractions. -/
def exponentWeight : Nat := 2 ^ (52 : Nat)

/-- The number of all exponents.  The last of them is that of what is not finite. -/
def exponentCount : Nat := 2 ^ (11 : Nat)

/-- The number with the given bit pattern; only the low 64 bits are looked at. -/
def ofBits (bits : Nat) : Binary64 :=
  let negative := bits / signWeight % 2 == 1
  let exponent := bits / exponentWeight % exponentCount
  let fraction := bits % exponentWeight
  if exponent == exponentCount - 1 then
    if fraction == 0 then .infinity negative else .nan
  else if exponent == 0 then round negative fraction 1
  else round negative ((exponentWeight + fraction) * 2 ^ (exponent - 1)) 1

/-- The exponent and fraction bits of a magnitude: a magnitude below `2 ^ 52` units is its own
    fraction, a larger one keeps the 52 bits after its leading one. -/
def magnitudeBits (units : Nat) : Nat :=
  if units < exponentWeight then units
  else
    let shift := spacing units
    shift * exponentWeight + units / 2 ^ shift

/-- The bits of a sign. -/
def signBits (negative : Bool) : Nat := if negative then signWeight else 0

/-- The bit pattern of a number, none for the not-a-number. -/
def toBits? : Binary64 → Option Nat
  | .nan => none
  | .infinity negative => some (signBits negative + (exponentCount - 1) * exponentWeight)
  | .finite negative units _ => some (signBits negative + magnitudeBits units)

end Reckoner.Binary64

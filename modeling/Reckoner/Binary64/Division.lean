import Reckoner.Binary64.Arithmetic

namespace Reckoner.Binary64

/-!
# Division with a look at the divisor

Where the plain division refuses a zero divisor, the quotient by zero has to be put together by hand:
an infinity takes the sign of the dividend, and a factor of one the sign of the zero.

Main definitions:
* `Binary64.withSign`, `copySign`: a magnitude with another sign
* `Binary64.quotient?`: the plain division, which refuses a zero divisor
* `Binary64.divide?`: the division that looks at the divisor first
-/

/-- The not-a-number. -/
def isNaN : Binary64 → Bool
  | .nan => true
  | _ => false

/-- The same magnitude with the given sign; the not-a-number stays as it is. -/
def withSign (negative : Bool) : Binary64 → Binary64
  | .nan => .nan
  | .infinity _ => .infinity negative
  | .finite _ units h => .finite negative units h

/-- The magnitude of the first number with the sign of the second. -/
def copySign (x y : Binary64) : Binary64 := withSign y.isNegative x

/-- The plain division.  It refuses a zero divisor, whatever the dividend is. -/
def quotient? (x y : Binary64) : Option Binary64 := if y.isZero then none else some (div x y)

/-- The division that looks at the divisor first.  The sign of a zero divisor matters. -/
def divide? (x y : Binary64) : Option Binary64 :=
  if y.isZero then
    if x.isZero || x.isNaN then some .nan
    else some (mul (copySign (.infinity false) x) (copySign (ofInt 1) y))
  else quotient? x y

end Reckoner.Binary64

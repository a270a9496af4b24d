import Reckoner.Binary64.Basic

namespace Reckoner.Binary64

/-!
# Arithmetic on binary64 numbers

Each operation on finite numbers is the exact result on units, rounded once.  The other cases are
those of the floating-point standard: an operation that has no value gives the not-a-number, which
then stays, and nothing ever fails.

Main definitions:
* `Binary64.neg`, `add`, `sub`, `mul`, `div`: the four operations and the change of sign
* `Binary64.floor?`, `isIntegral`: the integral part of a finite number
* `Binary64.half`: one half
-/

/-! ### Signs -/

/-- The sign bit; the not-a-number has none. -/
def isNegative : Binary64 → Bool
  | .nan => false
  | .infinity negative => negative
  | .finite negative _ _ => negative

/-- The same magnitude with the other sign. -/
def neg : Binary64 → Binary64
  | .nan => .nan
  | .infinity negative => .infinity !negative
  | .finite negative units h => .finite (!negative) units h

/-- A zero of either sign. -/
def isZero : Binary64 → Bool
  | .finite _ units _ => units == 0
  | _ => false

/-! ### The four operations -/

/-- The sum.  Opposite infinities have none; an exact zero is negative only if both summands are
    negative zeros. -/
def add : Binary64 → Binary64 → Binary64
  | .nan, _ => .nan
  | _, .nan => .nan
  | .infinity a, .infinity b => if a = b then .infinity a else .nan
  | .infinity a, .finite .. => .infinity a
  | .finite .., .infinity b => .infinity b
  | .finite a u _, .finite b v _ =>
    let sum := signed a u + signed b v
    if sum = 0 then zero (a && b) else round (sum < 0) sum.natAbs 1

/-- The difference: the sum with the second operand's sign changed. -/
def sub (x y : Binary64) : Binary64 := add x (neg y)

/-- The product.  Zero times an infinity has none; signs multiply. -/
def mul : Binary64 → Binary64 → Binary64
  | .nan, _ => .nan
  | _, .nan => .nan
  | .infinity a, .infinity b => .infinity (a != b)
  | .infinity a, .finite b v _ => if v = 0 then .nan else .infinity (a != b)
  | .finite a u _, .infinity b => if u = 0 then .nan else .infinity (a != b)
  | .finite a u _, .finite b v _ => round (a != b) (u * v) perOne

/-- The quotient.  A zero divisor gives the infinity of the combined sign, or the not-a-number for
    a zero dividend; two infinities have no quotient; signs multiply. -/
def div : Binary64 → Binary64 → Binary64
  | .nan, _ => .nan
  | _, .nan => .nan
  | .infinity _, .infinity _ => .nan
  | .infinity a, .finite b _ _ => .infinity (a != b)
  | .finite a _ _, .infinity b => zero (a != b)
  | .finite a u _, .finite b v _ =>
    if v = 0 then (if u = 0 then .nan else .infinity (a != b))
    else round (a != b) (u * perOne) v

/-! ### Integral parts -/

/-- The greatest integer not above a finite number. -/
def floor? (x : Binary64) : Option Int := x.signedUnits?.map (· / (perOne : Int))

/-- A finite number without fractional part. -/
def isIntegral : Binary64 → Bool
  | .finite _ units _ => units % perOne == 0
  | _ => false

/-- One half. -/
def half : Binary64 := ofRatio 1 2

end Reckoner.Binary64

import Reckoner.Value.Basic

namespace Reckoner.Value

/-!
# Equality and order of values

Numbers are compared by their exact value, whatever their kind, texts by their code points, lists
item by item.  The not-a-number differs from every number, itself included, and is below none;
values of different kinds, and records, have no order.

Main definitions:
* `Scalar`: the exact value of a number
* `scalar?`: the exact value of a value that is a number
* `equal`: equality of values
* `less?`: the order of values, where there is one
-/

/-- The exact value of a number, in units of the least positive double. -/
inductive Scalar where
  | nan
  | infinity (negative : Bool)
  | exact (units : Int)
  deriving DecidableEq

/-- Equality of numbers. -/
def Scalar.equal : Scalar → Scalar → Bool
  | .infinity a, .infinity b => a == b
  | .exact a, .exact b => a == b
  | _, _ => false

/-- The order of numbers. -/
def Scalar.less : Scalar → Scalar → Bool
  | .nan, _ => false
  | _, .nan => false
  | .infinity a, .infinity b => a && !b
  | .infinity a, .exact _ => a
  | .exact _, .infinity b => !b
  | .exact a, .exact b => decide (a < b)

/-- The exact value of an integer. -/
def Scalar.ofInt (n : Int) : Scalar := .exact (n * (Binary64.perOne : Int))

/-- The exact value of a double. -/
def Scalar.ofBinary64 : Binary64 → Scalar
  | .nan => .nan
  | .infinity negative => .infinity negative
  | .finite negative units _ => .exact (Binary64.signed negative units)

/-- The exact value of a value that is a number. -/
def scalar? : Value → Option Scalar
  | .bool b => some (.ofInt (if b then 1 else 0))
  | .integer n => some (.ofInt n)
  | .real x => some (.ofBinary64 x)
  | _ => none

mutual

/-- Equality of values.  Records are equal if they have equal fields under the same names, in
    whatever order. -/
def equal : Value → Value → Bool
  | .null, .null => true
  | .text s, .text t => s == t
  | .list as, .list bs => equalItems as bs
  | .record as, .record bs => as.length == bs.length && equalFields as bs
  | a, b =>
    match scalar? a, scalar? b with
    | some x, some y => x.equal y
    | _, _ => false

/-- Equality of lists, item by item. -/
def equalItems : List Value → List Value → Bool
  | [], [] => true
  | a :: as, b :: bs => equal a b && equalItems as bs
  | _, _ => false

/-- Every field is among the others. -/
def equalFields : List (String × Value) → List (String × Value) → Bool
  | [], _ => true
  | (name, a) :: rest, bs =>
    (match bs.lookup name with
      | some b => equal a b
      | none => false) && equalFields rest bs

end

mutual

/-- Whether a value is below another; none if the two have no order. -/
def less? : Value → Value → Option Bool
  | .text s, .text t => some (decide (s < t))
  | .list as, .list bs => lessItems? as bs
  | a, b =>
    match scalar? a, scalar? b with
    | some x, some y => some (x.less y)
    | _, _ => none

/-- The order of lists is that of the first two items that differ, and without such items that of
    their lengths. -/
def lessItems? : List Value → List Value → Option Bool
  | [], bs => some !bs.isEmpty
  | _ :: _, [] => some false
  | a :: as, b :: bs => if equal a b then lessItems? as bs else less? a b

end

end Reckoner.Value

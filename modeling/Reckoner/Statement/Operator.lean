import Reckoner.Binary64.Division

namespace Reckoner

/-!
# Operators

The four binary operators of a statement.

Main definitions:
* `Operator`: the operators
* `Operator.symbol`, `Operator.ofSymbol?`: to and from their signs
* `Operator.precedence`: how strongly they bind
* `Operator.apply`: what they compute
* `Operator.perform?`: the same where a step of the computation may refuse its operands

Main statement: `Operator.ofSymbol?_eq_some_iff` (each operator has its own sign).
-/

/-- A binary operator. -/
inductive Operator where
  | plus
  | minus
  | times
  | over
  deriving DecidableEq, Repr

namespace Operator

/-- The sign of an operator. -/
def symbol : Operator → Char
  | .plus => '+'
  | .minus => '-'
  | .times => '*'
  | .over => '/'

/-- The operator of a sign. -/
def ofSymbol? : Char → Option Operator
  | '+' => some .plus
  | '-' => some .minus
  | '*' => some .times
  | '/' => some .over
  | _ => none

/-- The operator of a sign is the one with that sign. -/
theorem ofSymbol?_eq_some_iff {c : Char} {o : Operator} : ofSymbol? c = some o ↔ c = o.symbol := by
  constructor
  · intro h
    unfold ofSymbol? at h
    split at h <;> simp at h <;> subst h <;> rfl
  · rintro rfl
    cases o <;> rfl

/-- Multiplication and division bind more strongly than addition and subtraction. -/
def precedence : Operator → Nat
  | .plus | .minus => 1
  | .times | .over => 2

/-- The value of an operation. -/
def apply : Operator → Binary64 → Binary64 → Binary64
  | .plus => Binary64.add
  | .minus => Binary64.sub
  | .times => Binary64.mul
  | .over => Binary64.div

/-- The value of an operation as it is computed: of the steps, only the plain division refuses
    operands. -/
def perform? : Operator → Binary64 → Binary64 → Option Binary64
  | .plus, x, y => some (x.add y)
  | .minus, x, y => some (x.sub y)
  | .times, x, y => some (x.mul y)
  | .over, x, y => x.divide? y

end Operator

end Reckoner

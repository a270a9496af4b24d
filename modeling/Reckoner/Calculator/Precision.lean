import Reckoner.Calculator.Display
import Reckoner.Value.Field

namespace Reckoner.Precision

/-!
# Checked precisions

Main definitions:
* `ofInt`: the precision of an integer in the admitted range
* `ofValue`: the precision that a loosely typed value stands for
-/

/-- The name of the field. -/
def field : String := "precision"

/-- The precision of an integer from 0 to 15. -/
def ofInt (n : Int) : Except Field.Defect Precision :=
  match Field.atLeast 0 n with
  | .error defect => .error defect
  | .ok n =>
    match Field.atMost 15 n with
    | .error defect => .error defect
    | .ok n => .ok ⟨min n.toNat 15, Nat.lt_succ_of_le (Nat.min_le_right n.toNat 15)⟩

/-- The precision that a value stands for. -/
def ofValue (value : Value) : Except Field.Error Precision :=
  match Field.integer value with
  | .error defect => .error ⟨field, defect⟩
  | .ok n =>
    match ofInt n with
    | .error defect => .error ⟨field, defect⟩
    | .ok p => .ok p

end Reckoner.Precision

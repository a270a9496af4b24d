import Reckoner.Calculator.Basic
import Reckoner.Value.Field

namespace Reckoner

/-!
# Calculation records

A calculation laid out as a record of four fields, each of which may be empty.

Main definitions:
* `CalculationRecord`: the record
* `CalculationRecord.ok`: no error is kept
* `Calculation.record`: the record of a calculation
* `CalculationRecord.ofFields`: the record of loosely typed fields
-/

/-- A calculation as a record. -/
structure CalculationRecord where
  statement : Option String
  value : Option Binary64
  formatted : Option String
  error : Option String
  deriving DecidableEq

/-- The record keeps no error, not even an empty one. -/
def CalculationRecord.ok (r : CalculationRecord) : Bool := r.error.isNone

/-- The record of a calculation: a value with its text, or an error. -/
def Calculation.record (c : Calculation) : CalculationRecord :=
  match c.outcome with
  | .ok answer => ⟨c.statement, some answer.value, some answer.formatted, none⟩
  | .error failure => ⟨c.statement, none, none, some failure.message⟩

/-- The record of loosely typed fields, all of which may be absent. -/
def CalculationRecord.ofFields (fields : List (String × Value)) :
    Except (List Field.Error) CalculationRecord :=
  match Field.optional Field.text (fields.lookup "statement"),
    Field.optional Field.real (fields.lookup "value"),
    Field.optional Field.text (fields.lookup "formatted"),
    Field.optional Field.text (fields.lookup "error") with
  | .ok statement, .ok value, .ok formatted, .ok error => .ok ⟨statement, value, formatted, error⟩
  | statement, value, formatted, error =>
    .error (Field.errors "statement" statement ++ Field.errors "value" value ++
      Field.errors "formatted" formatted ++ Field.errors "error" error)

end Reckoner

import Reckoner.Batch.ResultLine
import Reckoner.Statement.Checked
import Reckoner.Value.Field

namespace Reckoner

/-!
# Loosely typed batches

Main definitions:
* `ResultLine.ofFields`: the line of loosely typed fields
* `Batch.Refusal`: why a value is no statement of a batch
* `Batch.statementsOf`: the statements that values are
* `Batch.workersOf`: the number of workers that a value allows
-/

/-- A positive number. -/
def Field.positive (value : Value) : Except Field.Defect Nat :=
  match Field.integer value with
  | .error defect => .error defect
  | .ok n => (Field.atLeast 1 n).map Int.toNat

/-- The line of loosely typed fields; its number and its statement have to be there. -/
def ResultLine.ofFields (fields : List (String × Value)) :
    Except (List Field.Error) ResultLine :=
  match Field.required Field.positive (fields.lookup "line"),
    Field.required Field.text (fields.lookup "statement"),
    Field.optional Field.text (fields.lookup "result"),
    Field.optional Field.text (fields.lookup "error") with
  | .ok number, .ok statement, .ok result, .ok error => .ok ⟨number, statement, result, error⟩
  | number, statement, result, error =>
    .error (Field.errors "line" number ++ Field.errors "statement" statement ++
      Field.errors "result" result ++ Field.errors "error" error)

namespace Batch

/-- Why a value is no statement of a batch. -/
inductive Refusal where
  /-- It is no statement at all. -/
  | fault (f : Value.Fault)
  /-- It is a missing statement, which has no line. -/
  | field (e : Field.Error)
  deriving DecidableEq, Repr

/-- The statements that values are; the first value that is none is refused. -/
def statementsOf : List Value → Except Refusal (List String)
  | [] => .ok []
  | value :: rest =>
    match Statement.ofValue value with
    | .error f => .error (.fault f)
    | .ok none => .error (.field ⟨"statement", .notText⟩)
    | .ok (some statement) =>
      match statementsOf rest with
      | .error e => .error e
      | .ok statements => .ok (statement :: statements)

/-- The number of workers that a value allows; null and no value allow as many as there are
    processors. -/
def workersOf (value : Option Value) : Except Field.Error (Option Nat) :=
  match Field.optional Field.positive value with
  | .ok workers => .ok workers
  | .error defect => .error ⟨"max_workers", defect⟩

end Batch

end Reckoner

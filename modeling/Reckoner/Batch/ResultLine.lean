import Reckoner.Calculator.Basic

namespace Reckoner

/-!
# Result lines

What came of one statement of a batch, as it is written to the results file.

Main definitions:
* `ResultLine`: the line of a statement
* `ResultLine.render`: its text
* `ResultLine.ofOutcome`: the line of a statement with its outcome
-/

/-- The line of a statement: its number, counted from one, and its result or its error. -/
structure ResultLine where
  number : Nat
  statement : String
  result : Option String
  error : Option String
  deriving DecidableEq, Repr

namespace ResultLine

/-- The text of a line.  An error goes before a result. -/
def render (line : ResultLine) : String :=
  match line.error with
  | none => line.statement ++ " = " ++ line.result.getD "None"
  | some error => line.statement ++ " -> ERROR: " ++ error

/-- The line of a statement with its outcome. -/
def ofOutcome (number : Nat) (statement : String) : Except Failure Answer → ResultLine
  | .ok answer => ⟨number, statement, some answer.formatted, none⟩
  | .error failure => ⟨number, statement, none, some failure.message⟩

/-- Whether the statement was rejected. -/
def isError (line : ResultLine) : Bool := line.error.isSome

end ResultLine

end Reckoner

import Reckoner.Text.Quoted

namespace Reckoner

/-!
# What is wrong with a statement

Main definitions:
* `Statement.Error`: the reasons for which a statement is malformed
* `Statement.Error.message`: their texts
-/

/-- A reason for which a statement is malformed. -/
inductive Statement.Error where
  /-- There is no statement at all. -/
  | missing
  /-- The statement holds something other than digits, points, operators, brackets and blanks. -/
  | invalidSymbols (statement : String)
  /-- A literal or a closing bracket stands directly before an opening one. -/
  | noOperatorBeforeOpening
  /-- An operator comes first or last. -/
  | operatorAtEdge
  /-- An operator follows an operator. -/
  | consecutiveOperators
  /-- An operator stands directly before a closing bracket. -/
  | operatorBeforeClosing
  /-- A closing bracket closes nothing. -/
  | unmatchedClosing
  /-- An opening bracket is never closed. -/
  | unmatchedOpening
  deriving DecidableEq, Repr

/-- The text of a reason. -/
def Statement.Error.message : Statement.Error → String
  | .missing => "Input statement must not be None"
  | .invalidSymbols statement => "Statement contains invalid symbols: " ++ Text.quoted statement
  | .noOperatorBeforeOpening => "There should be an operator before an opening bracket"
  | .operatorAtEdge => "The operator should not be at the start or end of the statement"
  | .consecutiveOperators => "Two operators should not occur consecutively"
  | .operatorBeforeClosing => "There should not be an operator before a closing bracket"
  | .unmatchedClosing => "The statement contains an unmatched closing bracket"
  | .unmatchedOpening => "The statement contains an unmatched opening bracket"

end Reckoner

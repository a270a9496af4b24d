import Reckoner.Calculator.Display
import Reckoner.Postfix.Conversion

namespace Reckoner

/-!
# The calculator

A statement is brought into postfix order, evaluated and shown.  Whatever is wrong with it on the
way is kept as a reason; a calculation always has an outcome.

Main definitions:
* `Failure`: the reasons for which a statement has no result
* `Answer`: a value and its text
* `Calculation`: a statement with its answer or failure
* `calculate`: the calculation for a statement
-/

/-- A reason for which a statement has no result. -/
inductive Failure where
  | malformed (e : Statement.Error)
  | unevaluable (e : Postfix.Error)
  | notFinite (value : NonFinite)
  /-- The value is finite, but on the way to its text a number is not.  This never comes about. -/
  | notShown (value : NonFinite)
  deriving DecidableEq, Repr

/-- The text of a reason. -/
def Failure.message : Failure → String
  | .malformed e => e.message
  | .unevaluable e => e.message
  | .notFinite value => "Result is not a finite number: " ++ value.text
  | .notShown value => value.message

/-- The result of a statement: its value and how it is shown. -/
structure Answer where
  value : Binary64
  formatted : String
  deriving DecidableEq

/-- A statement, which may be missing, with what came of it. -/
structure Calculation where
  statement : Option String
  outcome : Except Failure Answer

namespace Calculation

/-- The text of the result, if there is one. -/
def formatted? (c : Calculation) : Option String :=
  match c.outcome with
  | .ok answer => some answer.formatted
  | .error _ => none

/-- The reason why there is no result, if there is none. -/
def failure? (c : Calculation) : Option Failure :=
  match c.outcome with
  | .ok _ => none
  | .error failure => some failure

end Calculation

/-- The value of a statement, or the reason why there is none.  Infinities and the not-a-number are
    values here. -/
def value (statement : Option String) : Except Failure Binary64 :=
  match Postfix.convert statement with
  | .error e => .error (.malformed e)
  | .ok tokens =>
    match Postfix.evaluate tokens with
    | .error e => .error (.unevaluable e)
    | .ok value => .ok value

/-- The calculation for a statement; its result, if it is finite, is shown with the given
    precision. -/
def calculate (p : Precision) (statement : Option String) : Calculation where
  statement := statement
  outcome :=
    match value statement with
    | .error failure => .error failure
    | .ok value =>
      match NonFinite.ofValue? value with
      | some nonFinite => .error (.notFinite nonFinite)
      | none =>
        match Display.format p value with
        | .error nonFinite => .error (.notShown nonFinite)
        | .ok formatted => .ok ⟨value, formatted⟩

end Reckoner

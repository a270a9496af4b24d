import Reckoner.Decimal.Reading
import Reckoner.Statement.Operator
import Reckoner.Text.Blank
import Reckoner.Text.Quoted

namespace Reckoner

/-!
# Postfix sequences

A statement in postfix order: literals and operators, each operator behind its two operands, no
brackets.  It is evaluated from left to right on a stack of values.

Main definitions:
* `Postfix.Token`: a literal or an operator
* `Postfix.literalValue?`: the value of a literal
* `Postfix.Error`: the reasons for which a sequence has no value
* `Postfix.step`, `Postfix.run`: the stack after one token and after several
* `Postfix.evaluate`: the value of a sequence
-/

namespace Postfix

/-- A token of a postfix sequence.  A literal is kept as it is written in the statement. -/
inductive Token where
  | literal (text : String)
  | operator (o : Operator)
  deriving DecidableEq, Repr

/-- A reason for which a postfix sequence has no value. -/
inductive Error where
  | invalidLiteral (text : String)
  | missingOperands (o : Operator)
  | noOperand
  | remainingOperands (count : Nat)
  deriving DecidableEq, Repr

/-- The text of a reason. -/
def Error.message : Error → String
  | .invalidLiteral text => "Invalid number literal: " ++ Text.quoted text
  | .missingOperands o =>
    "Not enough operands for operator " ++ Text.quoted (String.singleton o.symbol)
  | .noOperand => "No operand to evaluate"
  | .remainingOperands count => "Invalid expression (" ++ toString count ++ " remaining operands)"

/-! ### Literals -/

/-- The value of a literal, if it is a decimal numeral. -/
def literalValue? (text : String) : Option Binary64 :=
  Decimal.number? .anyScript (Text.trimBy Text.isSpace text.toList)

/-- The value of a literal, or the reason why there is none. -/
def literalValue (text : String) : Except Error Binary64 :=
  match literalValue? text with
  | some value => .ok value
  | none => .error (.invalidLiteral text)

/-! ### Evaluation -/

/-- The stack after one token.  The top of the stack is the right operand. -/
def step (stack : List Binary64) : Token → Except Error (List Binary64)
  | .literal text => do return (← literalValue text) :: stack
  | .operator o =>
    match stack with
    | right :: left :: rest => .ok (o.apply left right :: rest)
    | _ => .error (.missingOperands o)

/-- The stack after several tokens. -/
def run (stack : List Binary64) : List Token → Except Error (List Binary64)
  | [] => .ok stack
  | token :: rest =>
    match step stack token with
    | .ok stack => run stack rest
    | .error e => .error e

/-- The one value on the stack. -/
def result : (stack : List Binary64) → Except Error Binary64
  | [] => .error .noOperand
  | [value] => .ok value
  | stack => .error (.remainingOperands stack.length)

/-- The value of a postfix sequence. -/
def evaluate (tokens : List Token) : Except Error Binary64 :=
  match run [] tokens with
  | .ok stack => result stack
  | .error e => .error e

end Postfix

end Reckoner

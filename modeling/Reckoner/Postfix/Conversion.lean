import Reckoner.Postfix.Basic
import Reckoner.Statement.Basic

namespace Reckoner.Postfix

/-!
# From statements to postfix sequences

The lexemes of a statement are read once from left to right.  Literals go out at once; an operator
waits on a stack until one that binds less strongly, or its bracket's end, comes.  Operators of
equal strength are taken from left to right.

Main definitions:
* `Pending`: what waits on the stack, an operator or an open bracket
* `Conversion`: the stack and what has gone out
* `Conversion.step`: one lexeme, between its two neighbours
* `Conversion.scan`, `Conversion.finish`: all lexemes, and the end of the statement
* `convert`: the postfix sequence of a statement
-/

/-- What waits on the stack. -/
inductive Pending where
  | opening
  | operator (o : Operator)
  deriving DecidableEq, Repr

/-- The state of a conversion: what waits, the last to come first, and what has gone out, the last
    to go first. -/
structure Conversion where
  pending : List Pending
  output : List Token
  deriving DecidableEq, Repr

namespace Conversion

/-- Before the first lexeme. -/
def start : Conversion := ⟨[], []⟩

/-- The operators on top of the stack that satisfy a condition go out, the topmost first, until
    one does not or a bracket comes. -/
def release (condition : Operator → Bool) (output : List Token) : List Pending → Conversion
  | .operator o :: rest =>
    if condition o then release condition (.operator o :: output) rest
    else ⟨.operator o :: rest, output⟩
  | pending => ⟨pending, output⟩

/-- An operator next to a lexeme. -/
def isOperator : Option Lexeme → Bool
  | some (.operator _) => true
  | _ => false

/-- One lexeme, with the one before it and the one after it. -/
def step (before after : Option Lexeme) (c : Conversion) :
    Lexeme → Except Statement.Error Conversion
  | .literal text => .ok ⟨c.pending, .literal text :: c.output⟩
  | .opening =>
    if before.isNone || isOperator before || before = some .opening then
      .ok ⟨.opening :: c.pending, c.output⟩
    else .error .noOperatorBeforeOpening
  | .operator o =>
    if before.isNone || after.isNone then .error .operatorAtEdge
    else if isOperator after then .error .consecutiveOperators
    else
      let c := release (fun p => o.precedence ≤ p.precedence) c.output c.pending
      .ok ⟨.operator o :: c.pending, c.output⟩
  | .closing =>
    if isOperator before then .error .operatorBeforeClosing
    else
      let c := release (fun _ => true) c.output c.pending
      match c.pending with
      | _ :: pending => .ok ⟨pending, c.output⟩
      | [] => .error .unmatchedClosing

/-- All lexemes from one on, with the one before it. -/
def scan (before : Option Lexeme) (c : Conversion) :
    List Lexeme → Except Statement.Error Conversion
  | [] => .ok c
  | lexeme :: rest =>
    match step before rest.head? c lexeme with
    | .ok c => scan (some lexeme) c rest
    | .error e => .error e

/-- At the end all waiting operators go out; an open bracket among them was never closed. -/
def finish (c : Conversion) : Except Statement.Error (List Token) :=
  let c := release (fun _ => true) c.output c.pending
  match c.pending with
  | [] => .ok c.output.reverse
  | _ :: _ => .error .unmatchedOpening

end Conversion

/-- The postfix sequence of lexemes. -/
def ofLexemes (lexemes : List Lexeme) : Except Statement.Error (List Token) :=
  match Conversion.scan none .start lexemes with
  | .ok c => c.finish
  | .error e => .error e

/-- The postfix sequence of a statement. -/
def convert (statement : Option String) : Except Statement.Error (List Token) :=
  match Statement.tokenize statement with
  | .ok lexemes => ofLexemes lexemes
  | .error e => .error e

end Reckoner.Postfix

import Reckoner.Statement.Operator
import Reckoner.Text.Blank

namespace Reckoner

/-!
# The lexemes of a statement

A statement is written in digits, points, operators and round brackets, with blanks anywhere.  A
longest stretch of digits and points is one literal, every other symbol stands alone.

Main definitions:
* `Lexeme`: a literal, an operator or a bracket
* `Lexeme.chars`, `Lexeme.text`: how a lexeme is written
* `Statement.isAllowed`: the symbols of a statement
* `Statement.pieces`: a text cut before and after every symbol that stands alone
* `Statement.lexemes`: the lexemes of a text without blanks

Main statement: `Statement.flatten_pieces` (the pieces make up the text).
-/

/-- A lexeme of a statement.  A literal is kept as it is written. -/
inductive Lexeme where
  | literal (text : String)
  | operator (o : Operator)
  | opening
  | closing
  deriving DecidableEq, Repr

/-- The characters of a lexeme. -/
def Lexeme.chars : Lexeme → List Char
  | .literal text => text.toList
  | .operator o => [o.symbol]
  | .opening => ['(']
  | .closing => [')']

/-- The text of a lexeme. -/
def Lexeme.text (l : Lexeme) : String := String.ofList l.chars

namespace Statement

/-- A digit or a point. -/
def isLiteralChar (c : Char) : Bool := c.isDigit || c = '.'

/-- The lexeme of a symbol that stands alone. -/
def single? (c : Char) : Option Lexeme :=
  if c = '(' then some .opening
  else if c = ')' then some .closing
  else (Operator.ofSymbol? c).map .operator

/-- A symbol that may occur in a statement. -/
def isAllowed (c : Char) : Bool := isLiteralChar c || (single? c).isSome

/-- The text cut into stretches of digits and points and single other characters. -/
def pieces : List Char → List (List Char)
  | [] => []
  | c :: rest =>
    match pieces rest with
    | (d :: run) :: more =>
      if isLiteralChar c && isLiteralChar d then (c :: d :: run) :: more
      else [c] :: (d :: run) :: more
    | more => [c] :: more

/-- Nothing is lost in cutting. -/
@[simp] theorem flatten_pieces (cs : List Char) : (pieces cs).flatten = cs := by
  induction cs with
  | nil => rfl
  | cons c rest ih =>
    simp only [pieces]
    split
    · rename_i d run more h
      rw [h] at ih
      split <;> simpa using ih
    · simpa using ih

/-- The lexeme of a piece: a lone symbol is what it stands for, all else is a literal. -/
def ofPiece (piece : List Char) : Lexeme :=
  match piece with
  | [c] => (single? c).getD (.literal (String.ofList piece))
  | _ => .literal (String.ofList piece)

/-- The lexemes of a text of allowed symbols. -/
def lexemes (cs : List Char) : List Lexeme := (pieces cs).map ofPiece

end Statement

end Reckoner

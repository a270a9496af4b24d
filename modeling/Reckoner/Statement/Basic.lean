import Reckoner.Statement.Error
import Reckoner.Statement.Lexeme

namespace Reckoner.Statement

/-!
# Statements

Main definitions:
* `isCorrect`: every symbol of a text may occur in a statement
* `tokenize`: the lexemes of a statement
-/

/-- All symbols are allowed ones; a blank is none. -/
def isCorrect (cs : List Char) : Bool := cs.all isAllowed

/-- The lexemes of a statement, which may be missing.  Blanks count nowhere, not even inside a
    literal. -/
def tokenize : (statement : Option String) → Except Error (List Lexeme)
  | none => .error .missing
  | some statement =>
    let symbols := Text.compact statement.toList
    if isCorrect symbols then .ok (lexemes symbols) else .error (.invalidSymbols statement)

end Reckoner.Statement

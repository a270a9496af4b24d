import Reckoner.Decimal.Reading
import Reckoner.Text.Blank
import Reckoner.Value.Basic

namespace Reckoner

/-!
# Checked fields

A record of loosely typed values is read field by field.  A field that should be a number also
accepts what stands for one: a truth value, an integral double, a text with a numeral.  A field
that should be a text accepts texts only.

Main definitions:
* `Field.Defect`: what can be wrong with a field
* `Field.Error`: a defect of a named field
* `Field.Error.listMessage`: the text of several errors
* `Field.integer`, `Field.real`, `Field.text`: the readers
* `Field.atLeast`, `Field.atMost`: bounds for integers
* `Field.optional`, `Field.required`: fields that may be null, and such that may not be absent
-/

namespace Field

/-! ### Defects -/

/-- What is wrong with a field. -/
inductive Defect where
  | missing
  | notInteger
  | integerText
  | integerSize
  | fractionalPart
  | notFinite
  | belowBound (bound : Int)
  | aboveBound (bound : Int)
  | notText
  | emptyText
  | notOperator
  | notNumber
  | numberText
  | notFile
  | notPath
  deriving DecidableEq, Repr

/-- The words for a defect. -/
def Defect.message : Defect → String
  | .missing => "Field required"
  | .notInteger => "Input should be a valid integer"
  | .integerText => "Input should be a valid integer, unable to parse string as an integer"
  | .integerSize => "Unable to parse input string as an integer, exceeded maximum size"
  | .fractionalPart => "Input should be a valid integer, got a number with a fractional part"
  | .notFinite => "Input should be a finite number"
  | .belowBound bound => "Input should be greater than or equal to " ++ toString bound
  | .aboveBound bound => "Input should be less than or equal to " ++ toString bound
  | .notText => "Input should be a valid string"
  | .emptyText => "String should have at least 1 character"
  | .notOperator => "Input should be '+', '-', '*' or '/'"
  | .notNumber => "Input should be a valid number"
  | .numberText => "Input should be a valid number, unable to parse string as a number"
  | .notFile => "Path does not point to a file"
  | .notPath => "Input is not a valid path for <class 'pathlib.Path'>"

/-- The code of a defect. -/
def Defect.code : Defect → String
  | .missing => "missing"
  | .notInteger => "int_type"
  | .integerText => "int_parsing"
  | .integerSize => "int_parsing_size"
  | .fractionalPart => "int_from_float"
  | .notFinite => "finite_number"
  | .belowBound _ => "greater_than_equal"
  | .aboveBound _ => "less_than_equal"
  | .notText => "string_type"
  | .emptyText => "string_too_short"
  | .notOperator => "literal_error"
  | .notNumber => "float_type"
  | .numberText => "float_parsing"
  | .notFile => "path_not_file"
  | .notPath => "path_type"

/-- A defect of a field. -/
structure Error where
  field : String
  defect : Defect
  deriving DecidableEq, Repr

/-- The text of an error: the field, the words and the code. -/
def Error.message (e : Error) : String :=
  e.field ++ ": " ++ e.defect.message ++ " [" ++ e.defect.code ++ "]"

/-- The text of several errors. -/
def Error.listMessage (errors : List Error) : String :=
  "; ".intercalate (errors.map Error.message)

/-! ### Numerals in texts -/

/-- A text without its underscores, if there are none at its ends and no two in a row. -/
def ungrouped? (cs : List Char) : Option (List Char) :=
  if cs.head? = some '_' ∨ cs.getLast? = some '_' ∨ (cs.zip cs.tail).contains ('_', '_') then none
  else some (cs.filter (· ≠ '_'))

/-- A numeral without a fraction of zeros, which are one at least. -/
def withoutZeroFraction (cs : List Char) : List Char :=
  match cs.dropWhile (· ≠ '.') with
  | _ :: fraction =>
    if fraction ≠ [] ∧ fraction.all (· = '0') then cs.takeWhile (· ≠ '.') else cs
  | [] => cs

/-- A numeral without leading zeros, of which one stays before a point or an end.  It has to start
    with a digit; a minus may follow the zeros. -/
def withoutLeadingZeros? (cs : List Char) : Option (List Char) :=
  match cs with
  | [] => none
  | '0' :: _ =>
    let isLeading := fun c : Char => c = '0' || c = '_'
    let last := (cs.takeWhile isLeading).getLast?.toList
    match cs.dropWhile isLeading with
    | [] => some last
    | '.' :: rest => some (last ++ '.' :: rest)
    | c :: rest => if c.isDigit || c = '-' then some (c :: rest) else none
  | c :: _ => if c.isDigit then some cs else none

/-- The canonical form of a numeral: surrounding blanks, a plus, leading zeros, a fraction of zeros
    and grouping underscores mean nothing. -/
def canonical? (cs : List Char) : Option (List Char) :=
  let (minus, unsigned) := match Text.trimBy Text.isSpace cs with
    | '-' :: rest => (['-'], rest)
    | '+' :: rest => ([], rest)
    | rest => ([], rest)
  (withoutLeadingZeros? unsigned).map fun digits =>
    let whole := withoutZeroFraction digits
    minus ++ (ungrouped? whole).getD whole

/-- The integer of a numeral in canonical form: digits after an optional minus, without leading
    zeros.  With the minus it has a greatest length. -/
def canonicalInteger (cs : List Char) : Except Defect Int :=
  let unsigned := if cs.head? = some '-' then cs.tail else cs
  let digits := unsigned.takeWhile Char.isDigit
  if digits.head? = some '0' ∧ digits ≠ ['0'] then .error .integerText
  else if Decimal.longestInteger < (cs.length - unsigned.length) + digits.length then
    .error .integerSize
  else
    match Decimal.integer? .ascii cs with
    | some n => .ok n
    | none => .error .integerText

/-- The integer of a text. -/
def integerOfText (cs : List Char) : Except Defect Int :=
  match canonical? cs with
  | some cs => canonicalInteger cs
  | none => .error .integerText

/-- The double of a text, with surrounding blanks or with grouping underscores. -/
def realOfText? (cs : List Char) : Option Binary64 :=
  match Decimal.number? .ascii (Text.trimBy Text.isSpace cs) with
  | some x => some x
  | none => (ungrouped? cs).bind (Decimal.number? .ascii)

/-! ### Readers -/

/-- The integer of a double, which has to lie strictly between the ends of the 64-bit range. -/
def integerOfReal (x : Binary64) : Except Defect Int :=
  match x.floor? with
  | none => .error .notFinite
  | some n =>
    if !x.isIntegral then .error .fractionalPart
    else if n.natAbs < 2 ^ (63 : Nat) then .ok n
    else .error .integerSize

/-- An integer, or what stands for one. -/
def integer : Value → Except Defect Int
  | .integer n => .ok n
  | .bool b => .ok (if b then 1 else 0)
  | .real x => integerOfReal x
  | .text s => integerOfText s.toList
  | _ => .error .notInteger

/-- An integer that is not below a bound. -/
def atLeast (bound : Int) (n : Int) : Except Defect Int :=
  if n < bound then .error (.belowBound bound) else .ok n

/-- An integer that is not above a bound. -/
def atMost (bound : Int) (n : Int) : Except Defect Int :=
  if bound < n then .error (.aboveBound bound) else .ok n

/-- A double, or what stands for one.  An integer has to be within the range of the doubles. -/
def real : Value → Except Defect Binary64
  | .real x => .ok x
  | .bool b => .ok (Binary64.ofInt (if b then 1 else 0))
  | .integer n =>
    let x := Binary64.ofInt n
    if x.isFinite then .ok x else .error .notNumber
  | .text s =>
    match realOfText? s.toList with
    | some x => .ok x
    | none => .error .numberText
  | _ => .error .notNumber

/-- A text. -/
def text : Value → Except Defect String
  | .text s => .ok s
  | _ => .error .notText

/-! ### Fields of a record -/

/-- A field that may be absent or null. -/
def optional {α : Type} (reader : Value → Except Defect α) :
    Option Value → Except Defect (Option α)
  | none => .ok none
  | some .null => .ok none
  | some value => (reader value).map some

/-- A field that has to be there. -/
def required {α : Type} (reader : Value → Except Defect α) : Option Value → Except Defect α
  | none => .error .missing
  | some value => reader value

/-- The error of a field that could not be read. -/
def errors {α : Type} (field : String) : Except Defect α → List Error
  | .ok _ => []
  | .error defect => [⟨field, defect⟩]

end Field

end Reckoner

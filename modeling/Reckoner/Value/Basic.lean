import Reckoner.Binary64.Arithmetic

namespace Reckoner

/-!
# Loosely typed values

Some operations take values of any kind: numbers and texts, lists and records of values, and
nothing at all.  A truth value counts as the number one or zero.

Main definitions:
* `Value`: the values
* `Value.kindName`: the name of the kind of a value
* `Value.items?`: what a value holds, one after the other
* `Value.Fault`: the operations that a kind of value does not have
-/

/-- A value of any kind.  The fields of a record are in the order in which they were given. -/
inductive Value where
  | null
  | bool (b : Bool)
  | integer (n : Int)
  | real (x : Binary64)
  | text (s : String)
  | list (items : List Value)
  | record (fields : List (String × Value))

namespace Value

/-- The name of the kind of a value. -/
def kindName : Value → String
  | .null => "NoneType"
  | .bool _ => "bool"
  | .integer _ => "int"
  | .real _ => "float"
  | .text _ => "str"
  | .list _ => "list"
  | .record _ => "dict"

/-- What a value holds: the items of a list, the characters of a text, the names of a record's
    fields.  The other kinds hold nothing that could be gone through. -/
def items? : Value → Option (List Value)
  | .list items => some items
  | .text s => some (s.toList.map fun c => .text (String.singleton c))
  | .record fields => some (fields.map fun field => .text field.1)
  | _ => none

/-- An operation that a value does not have. -/
inductive Fault where
  /-- It holds nothing that could be gone through. -/
  | notIterable (kind : String)
  /-- It has no length. -/
  | noLength (kind : String)
  /-- It has no operation of that name. -/
  | noOperation (kind : String) (operation : String)
  /-- It cannot be looked up among others. -/
  | unhashable (kind : String)
  /-- A record has no field at a position. -/
  | noPosition (position : Nat)
  deriving DecidableEq, Repr

/-- The text of a fault. -/
def Fault.message : Fault → String
  | .notIterable kind => "'" ++ kind ++ "' object is not iterable"
  | .noLength kind => "object of type '" ++ kind ++ "' has no len()"
  | .noOperation kind operation =>
    "'" ++ kind ++ "' object has no attribute '" ++ operation ++ "'"
  | .unhashable kind => "unhashable type: '" ++ kind ++ "'"
  | .noPosition position => toString position

end Value

end Reckoner

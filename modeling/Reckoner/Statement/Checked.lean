import Reckoner.Statement.Basic
import Reckoner.Value.Basic

namespace Reckoner.Statement

/-!
# Loosely typed statements

Main definitions:
* `ofValue`: the statement that a value is
* `isCorrectValue`: whether a value holds nothing but symbols of statements
-/

/-- The statement that a value is; null is a missing one.  Only a text can be split at its blanks. -/
def ofValue : Value → Except Value.Fault (Option String)
  | .null => .ok none
  | .text s => .ok (some s)
  | value => .error (.noOperation value.kindName "split")

/-- Whether an item is a single symbol of statements.  Items that can hold others cannot be looked
    up. -/
def isSymbol : Value → Except Value.Fault Bool
  | .text s =>
    match s.toList with
    | [c] => .ok (isAllowed c)
    | _ => .ok false
  | .list items => .error (.unhashable (Value.list items).kindName)
  | .record fields => .error (.unhashable (Value.record fields).kindName)
  | _ => .ok false

/-- Whether all items are single symbols; the first that is none decides. -/
def areSymbols : List Value → Except Value.Fault Bool
  | [] => .ok true
  | item :: rest =>
    match isSymbol item with
    | .ok true => areSymbols rest
    | other => other

/-- Whether all that a value holds are symbols of statements. -/
def isCorrectValue (value : Value) : Except Value.Fault Bool :=
  match value.items? with
  | none => .error (.notIterable value.kindName)
  | some items => areSymbols items

end Reckoner.Statement

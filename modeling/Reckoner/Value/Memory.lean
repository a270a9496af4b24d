import Reckoner.Value.Basic

namespace Reckoner

/-!
# Lists in memory

A list that is handed on is still there for the one who handed it on, and may be looked at again.  So
where it matters whether a list is copied or changed, lists are kept in a memory and handed on by
their addresses.

Main definitions:
* `Memory`: lists of values at their addresses
* `Memory.list?`: the list at an address
* `Memory.allocate`, `Memory.put`: a new list, and another list at an address
* `Memory.putCell?`: another value in a cell of a list
-/

/-- Lists of values; the address of a list is its position. -/
structure Memory where
  lists : List (List Value)

namespace Memory

/-- The list at an address. -/
def list? (m : Memory) (address : Nat) : Option (List Value) := m.lists[address]?

/-- The address of the next new list. -/
def next (m : Memory) : Nat := m.lists.length

/-- A new list. -/
def allocate (m : Memory) (xs : List Value) : Memory := ⟨m.lists ++ [xs]⟩

/-- Another list at an address. -/
def put (m : Memory) (address : Nat) (xs : List Value) : Memory := ⟨m.lists.set address xs⟩

/-- Another value in a cell of the list at an address, if there is such a cell. -/
def putCell? (m : Memory) (address cell : Nat) (v : Value) : Option Memory :=
  match m.list? address with
  | some xs => if cell < xs.length then some (m.put address (xs.set cell v)) else none
  | none => none

end Memory

end Reckoner

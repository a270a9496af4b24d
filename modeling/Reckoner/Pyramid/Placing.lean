import Reckoner.Pyramid
import Reckoner.Value.Memory

namespace Reckoner.Pyramid

/-!
# Placing a pyramid in memory

The elements of a pyramid come from a list that belongs to somebody else.  They are sorted in a copy
of it, and then put one after the other into rows that hold zeros at first.

Main definitions:
* `Stop`: what can stop the placing
* `columns`: the columns of a row that hold elements
* `place`, `placeRows`: one row, and the rows from one on
* `buildAt`: the pyramid of a list in memory
-/

/-- What can stop the placing: that there is no such pyramid, or a step that cannot be taken. -/
inductive Stop where
  | refused (e : Error)
  /-- The number of elements has no height at all. -/
  | noHeight (e : RootError)
  /-- There is a column for an element, but no element. -/
  | exhausted
  /-- There is no such column. -/
  | outside (column : Nat)
  deriving DecidableEq, Repr

/-- The columns for the elements of row number `r`. -/
def columns (height r : Nat) : List Nat := List.range' (height - r - 1) (r + 1) 2

/-- Elements put into columns of the row at an address, and the elements that are left. -/
def place (m : Memory) (address : Nat) :
    (columns : List Nat) → (elements : List Value) → Memory × Except Stop (List Value)
  | [], elements => (m, .ok elements)
  | _ :: _, [] => (m, .error .exhausted)
  | column :: columns, v :: elements =>
    match m.putCell? address column v with
    | none => (m, .error (.outside column))
    | some m => place m address columns elements

/-- The rows from number `r` on, each a new list of zeros into which its elements are put. -/
def placeRows (height : Nat) (m : Memory) (r : Nat) :
    (count : Nat) → (elements : List Value) → Memory × Except Stop (List Nat)
  | 0, _ => (m, .ok [])
  | count + 1, elements =>
    let vacant := List.replicate (2 * height - 1) (Value.integer 0)
    match place (m.allocate vacant) m.next (columns height r) elements with
    | (placed, .error stop) => (placed, .error stop)
    | (placed, .ok rest) =>
      match placeRows height placed (r + 1) count rest with
      | (placed, .error stop) => (placed, .error stop)
      | (placed, .ok addresses) => (placed, .ok (m.next :: addresses))

/-- The pyramid of the list at an address, if there is one: the memory afterwards, and the addresses
    of the rows.  The list is sorted in a copy; of a copy that cannot be sorted nothing is used. -/
def buildAt (m : Memory) (input : Option Nat) : Memory × Except Stop (List Nat) :=
  match input.bind m.list? with
  | none => (m, .error (.refused .missing))
  | some elements =>
    let copied := m.allocate elements
    match Sorting.sort? Value.less? elements with
    | none => (copied, .error (.refused .unsortable))
    | some sorted =>
      let arranged := copied.put m.next sorted
      match heightOrMinusOne sorted.length with
      | .error e => (arranged, .error (.noHeight e))
      | .ok height =>
        if height ≤ 0 then (arranged, .error (.refused (.unsuitableSize sorted.length)))
        else placeRows height.toNat arranged 0 height.toNat sorted

end Reckoner.Pyramid

import Reckoner.Value.Order
import Reckoner.Value.Sorting

namespace Reckoner

/-!
# Pyramids

Numbers are arranged in rows, one in the first row and one more in each further row, ascending from
top to bottom and from left to right.  All rows are equally wide; a row's numbers stand on every
second cell around the middle, and the other cells hold zero.

Main definitions:
* `Pyramid.squareRoot`, `Pyramid.integerRoot`: the integer square root
* `Pyramid.height?`: the height of a pyramid of a number of elements
* `Pyramid.heightOrMinusOne`: the same for any integer
* `Pyramid.row`, `Pyramid.rows`: one row and all rows
* `Pyramid.build`: the pyramid of loosely typed values
-/

namespace Pyramid

/-! ### The height -/

/-- The square root bit by bit: `root` is right in all bits from number `bits` on, and each lower
    one is set if the square stays at most `n`. -/
def refineRoot (n : Nat) (root : Nat) : (bits : Nat) → Nat
  | 0 => root
  | bits + 1 =>
    let candidate := root + 2 ^ bits
    refineRoot n (if candidate * candidate ≤ n then candidate else root) bits

/-- The greatest number whose square is at most `n`. -/
def squareRoot (n : Nat) : Nat := refineRoot n 0 (n.log2 / 2 + 1)

/-- The height of a pyramid of `count` elements: the `h` with `h * (h + 1) / 2 = count`, if there is
    one.  There is none exactly if `8 * count + 1` is no square. -/
def height? (count : Nat) : Option Nat :=
  let discriminant := 8 * count + 1
  let root := squareRoot discriminant
  if root * root = discriminant then some ((root - 1) / 2) else none

/-- Why an integer has no integer square root. -/
inductive RootError where
  | negative
  deriving DecidableEq, Repr

/-- The text of an error. -/
def RootError.message : RootError → String
  | .negative => "isqrt() argument must be nonnegative"

/-- The greatest integer whose square is at most the given one. -/
def integerRoot (n : Int) : Except RootError Int :=
  if n < 0 then .error .negative else .ok (squareRoot n.toNat)

/-- The height for any integer: minus one says that there is none, and a count whose discriminant has
    no root at all is refused. -/
def heightOrMinusOne (count : Int) : Except RootError Int :=
  let discriminant := 8 * count + 1
  match integerRoot discriminant with
  | .error e => .error e
  | .ok root => .ok (if root * root = discriminant then (root - 1) / 2 else -1)

/-! ### The rows -/

/-- A row of a pyramid of the given height: its elements on every second cell, between equal
    margins. -/
def row (height : Nat) (elements : List Value) : List Value :=
  let vacant := Value.integer 0
  let margin := List.replicate (height - elements.length) vacant
  margin ++ elements.intersperse vacant ++ margin

/-- The rows from one on, the first of which has `size` elements. -/
def rowsFrom (height : Nat) (size : Nat) : (count : Nat) → List Value → List (List Value)
  | 0, _ => []
  | count + 1, elements =>
    row height (elements.take size) ::
      rowsFrom height (size + 1) count (elements.drop size)

/-- All rows of a pyramid, from its elements in ascending order. -/
def rows (height : Nat) (elements : List Value) : List (List Value) :=
  rowsFrom height 1 height elements

/-! ### Building -/

/-- Why there is no pyramid. -/
inductive Error where
  /-- There are no elements at all. -/
  | missing
  /-- The elements have no order. -/
  | unsortable
  /-- No pyramid has that many elements. -/
  | unsuitableSize (count : Nat)
  deriving DecidableEq, Repr

/-- The text of an error. -/
def Error.message : Error → String
  | .missing => "Input list must not be None"
  | .unsortable => "Error while sorting the input list"
  | .unsuitableSize count => "Inappropriate number of elements: " ++ toString count

/-- The pyramid of the elements of a list. -/
def ofList (elements : List Value) : Except Error (List (List Value)) :=
  match Sorting.sort? Value.less? elements with
  | none => .error .unsortable
  | some sorted =>
    match height? sorted.length with
    | some (height + 1) => .ok (rows (height + 1) sorted)
    | _ => .error (.unsuitableSize sorted.length)

/-- The pyramid of what a value holds. -/
def build : Value → Except Error (List (List Value))
  | .null => .error .missing
  | value =>
    match value.items? with
    | none => .error .unsortable
    | some elements => ofList elements

end Pyramid

end Reckoner

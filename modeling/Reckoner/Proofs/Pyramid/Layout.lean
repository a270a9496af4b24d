import Reckoner.Proofs.Pyramid.Height
import Reckoner.Proofs.Value.Exact
import Reckoner.Proofs.Value.Sorting

namespace Reckoner.Pyramid

/-!
# The layout of a pyramid

The rows take the sorted elements one after the other, each row as many as its number says, so that
row number `r`, counted from zero, begins with element number `triangular r`.  In a row the margins
and the vacant cells between the elements are what is left of its width.

* `slice sorted r`: the elements of row number `r`.
* `rows_eq`: each row is made of its slice.
* `IsPyramid height sorted rows`: the rows show the elements, and zeros elsewhere.
* `isPyramid_rows`: so do the rows of as many elements as the height has room for.
* `ofList_of_isNumber`: numbers, in stable order of their exact values, make a pyramid.
-/

/-! ### The columns of a row -/

section

variable {height : Nat} {elements : List Value}

/-- The width of a row. -/
theorem length_row (hpos : 1 ≤ elements.length) (hle : elements.length ≤ height) :
    (row height elements).length = 2 * height - 1 := by
  simp only [row, List.length_append, List.length_replicate, List.length_intersperse]
  omega

/-- What stands between the margins. -/
theorem getElem?_row_inner {c : Nat} (hc : c < 2 * elements.length - 1) :
    (row height elements)[height - elements.length + c]? =
      (elements.intersperse (.integer 0))[c]? := by
  have hlength : c < (elements.intersperse (Value.integer 0)).length := by
    rwa [List.length_intersperse]
  rw [row, List.append_assoc, List.getElem?_append_right (by simp), List.length_replicate,
    Nat.add_sub_cancel_left, List.getElem?_append_left hlength]

/-- The elements are two columns apart. -/
theorem getElem?_row_placed {j : Nat} (hj : j < elements.length) :
    (row height elements)[height - elements.length + 2 * j]? = elements[j]? := by
  rw [getElem?_row_inner (by omega), List.getElem?_intersperse_two_mul]

/-- All other cells are vacant. -/
theorem getElem?_row_vacant {c : Nat} (hle : elements.length ≤ height) (hc : c < 2 * height - 1)
    (hvacant : ∀ j < elements.length, c ≠ height - elements.length + 2 * j) :
    (row height elements)[c]? = some (.integer 0) := by
  rcases Nat.lt_or_ge c (height - elements.length) with hleft | hright
  · rw [row, List.append_assoc, List.getElem?_append_left (by simpa using hleft),
      List.getElem?_replicate_of_lt hleft]
  obtain ⟨d, rfl⟩ := Nat.exists_eq_add_of_le hright
  rcases Nat.lt_or_ge d (2 * elements.length - 1) with hinner | hmargin
  · -- An even distance from the left margin is that of an element.
    rw [getElem?_row_inner hinner]
    rcases Nat.even_or_odd' d with ⟨j, rfl | rfl⟩
    · exact absurd rfl (hvacant j (by omega))
    · rw [List.getElem?_intersperse_two_mul_add_one (by omega)]
  · have hlength : (List.replicate (height - elements.length) (Value.integer 0) ++
        elements.intersperse (.integer 0)).length =
          height - elements.length + (2 * elements.length - 1) := by simp
    rw [row, List.getElem?_append_right (by omega), hlength,
      List.getElem?_replicate_of_lt (by omega)]

end

/-! ### The elements of each row -/

/-- The elements of row number `r`. -/
def slice (sorted : List Value) (r : Nat) : List Value := (sorted.drop (triangular r)).take (r + 1)

/-- An element of a row among all. -/
theorem getElem?_slice {sorted : List Value} {r j : Nat} (hj : j ≤ r) :
    (slice sorted r)[j]? = sorted[triangular r + j]? := by
  rw [slice, List.getElem?_take_of_lt (by omega), List.getElem?_drop]

/-- The slices of further rows begin after those of the rows before. -/
theorem flatMap_slice (sorted : List Value) (height : Nat) :
    (List.range height).flatMap (slice sorted) = sorted.take (triangular height) := by
  induction height with
  | zero => rfl
  | succ height ih =>
    rw [triangular_succ, List.take_add, ← ih, List.range_succ, List.flatMap_append,
      List.flatMap_singleton, slice]

/-- Rows from number `k` on, when the elements of those before have been taken. -/
theorem rowsFrom_eq (height k count : Nat) (sorted : List Value) :
    rowsFrom height (k + 1) count (sorted.drop (triangular k)) =
      (List.range' k count).map fun r => row height (slice sorted r) := by
  induction count generalizing k with
  | zero => rfl
  | succ count ih =>
    -- Without its slice, the list begins with the slice of the next row.
    rw [rowsFrom, List.drop_drop, ← triangular_succ, ih, List.range'_succ, List.map_cons, slice]

/-- **Each row is made of its slice.** -/
theorem rows_eq (height : Nat) (sorted : List Value) :
    rows height sorted = (List.range height).map fun r => row height (slice sorted r) := by
  rw [rows, List.range_eq_range', ← rowsFrom_eq height 0 height sorted]
  rfl

/-! ### Pyramids -/

/-- The cell of a row and a column, if there is one. -/
def cell (rows : List (List Value)) (r c : Nat) : Option Value := rows[r]?.bind fun row => row[c]?

/-- The column of element number `j` of row number `r`. -/
def column (height r j : Nat) : Nat := height - 1 - r + 2 * j

/-- What the cells for elements hold, from top to bottom and from left to right. -/
def reading (height : Nat) (rows : List (List Value)) : List (Option Value) :=
  (List.range height).flatMap fun r =>
    (List.range (r + 1)).map fun j => cell rows r (column height r j)

/-- The rows of a pyramid that shows elements in the given order. -/
structure IsPyramid (height : Nat) (sorted : List Value) (rows : List (List Value)) : Prop where
  /-- There are as many rows as the pyramid is high. -/
  length_eq : rows.length = height
  /-- All of them have the width of the last one. -/
  width_eq : ∀ row ∈ rows, row.length = 2 * height - 1
  /-- Each row holds its elements, of which there are enough, around the middle. -/
  placed : ∀ r < height, ∀ j ≤ r, ∃ v,
    sorted[triangular r + j]? = some v ∧ cell rows r (column height r j) = some v
  /-- The other cells hold zero. -/
  vacant : ∀ r < height, ∀ c < 2 * height - 1, (∀ j ≤ r, c ≠ column height r j) →
    cell rows r c = some (.integer 0)
  /-- Nothing is left out, and nothing stands twice. -/
  reading_eq : reading height rows = sorted.map some

section

variable {height : Nat} {sorted : List Value}

/-- A cell of a row. -/
theorem cell_rows {r : Nat} (hr : r < height) (c : Nat) :
    cell (rows height sorted) r c = (row height (slice sorted r))[c]? := by
  rw [cell, rows_eq, List.getElem?_map, List.getElem?_range hr]
  rfl

variable (hlength : sorted.length = triangular height)
include hlength

/-- There are enough elements for each row. -/
theorem length_slice {r : Nat} (hr : r < height) : (slice sorted r).length = r + 1 := by
  have hroom := triangular_add_le hr
  rw [slice, List.length_take, List.length_drop]
  omega

/-- The elements of each row stand on their cells. -/
theorem cell_rows_column {r j : Nat} (hr : r < height) (hj : j ≤ r) :
    cell (rows height sorted) r (column height r j) = sorted[triangular r + j]? := by
  have hslice := length_slice hlength hr
  have hcolumn : column height r j = height - (slice sorted r).length + 2 * j := by
    rw [column]
    omega
  rw [cell_rows hr, hcolumn, getElem?_row_placed (by omega), getElem?_slice hj]

/-- From left to right, the cells of each row hold its slice. -/
theorem map_cell_rows {r : Nat} (hr : r < height) :
    ((List.range (r + 1)).map fun j => cell (rows height sorted) r (column height r j)) =
      (slice sorted r).map some := by
  refine List.ext_getElem (by simp [length_slice hlength hr]) fun j hj _ => ?_
  have hj' : j ≤ r := by simpa [Nat.lt_succ_iff] using hj
  rw [List.getElem_map, List.getElem_range, cell_rows_column hlength hr hj',
    ← getElem?_slice hj', List.getElem_map, List.getElem?_eq_getElem]

/-- **The rows show all elements**, and zeros elsewhere. -/
theorem isPyramid_rows : IsPyramid height sorted (rows height sorted) where
  length_eq := by rw [rows_eq, List.length_map, List.length_range]
  width_eq := by
    rw [rows_eq]
    intro line hline
    obtain ⟨r, hr, rfl⟩ := List.mem_map.1 hline
    have hslice := length_slice hlength (List.mem_range.1 hr)
    have hlt := List.mem_range.1 hr
    exact length_row (by omega) (by omega)
  placed := by
    intro r hr j hj
    have hroom := triangular_add_le hr
    have hlt : triangular r + j < sorted.length := by omega
    have helement := List.getElem?_eq_getElem hlt
    exact ⟨_, helement, (cell_rows_column hlength hr hj).trans helement⟩
  vacant := by
    intro r hr c hc hvacant
    have hslice := length_slice hlength hr
    rw [cell_rows hr]
    refine getElem?_row_vacant (by omega) hc fun j hj => ?_
    have hother := hvacant j (by omega)
    rw [column] at hother
    omega
  reading_eq := by
    -- Row by row the slices are read, and together they are the list.
    calc reading height (rows height sorted)
      _ = (List.range height).flatMap fun r => (slice sorted r).map some :=
        List.flatMap_congr fun r hr => map_cell_rows hlength (List.mem_range.1 hr)
      _ = ((List.range height).flatMap (slice sorted)).map some := List.map_flatMap.symm
      _ = sorted.map some := by rw [flatMap_slice, List.take_of_length_le (Nat.le_of_eq hlength)]

end

/-! ### The pyramid of numbers -/

/-- **Numbers make a pyramid**, if there are as many as it has room for: it shows them in a stable
    order of their exact values. -/
theorem ofList_of_isNumber {elements : List Value} {height : Nat} (hpos : 1 ≤ height)
    (hlength : elements.length = triangular height) (hnumbers : ∀ v ∈ elements, v.IsNumber) :
    ∃ sorted, ofList elements = .ok (rows height sorted) ∧
      IsPyramid height sorted (rows height sorted) ∧
      Sorting.IsStableOrder Value.exactValue elements sorted := by
  obtain ⟨sorted, hsort, hstable⟩ := Sorting.exists_sort? Value.less?_of_isNumber hnumbers
  have hcount : sorted.length = triangular height := hstable.perm.length_eq.trans hlength
  refine ⟨sorted, ?_, isPyramid_rows hcount, hstable⟩
  -- No pyramid is built without rows, so the height is that of a successor.
  obtain ⟨height, rfl⟩ := Nat.exists_eq_add_of_le' hpos
  simp only [ofList, hsort, height?_eq_some_iff.2 hcount.symm]

end Reckoner.Pyramid

import Reckoner.Proofs.Pyramid.Layout
import Reckoner.Pyramid.Placing

namespace Reckoner

/-!
# The pyramid that is placed in memory

What is placed in memory element by element is the pyramid of the sorted list, and no step of it is
one that cannot be taken.  All lists that were in memory before stay as they are: the copy and the
rows are new ones.

* `Memory.Extends before after`: the lists of one memory are in the other one, too.
* `Pyramid.place_eq`: what is left of placing elements in columns of a row.
* `Pyramid.fill_columns`: the filled columns make a row of the pyramid.
* `Pyramid.placeRows_cases`: the rows that are placed.
* `Pyramid.Shows result outcome`: a memory with addresses shows a pyramid, or there is none.
* `Pyramid.buildAt_shows`: the two ways to build a pyramid agree.
* `Pyramid.build_layout`: numbers, in stable order of their exact values, make a pyramid.
-/

namespace Memory

/-- All lists of a memory are at the same addresses in another one. -/
def Extends (before after : Memory) : Prop :=
  ∀ address xs, before.list? address = some xs → after.list? address = some xs

/-- A memory has its own lists. -/
theorem Extends.refl (m : Memory) : m.Extends m := fun _ _ h => h

/-- What is still there after one step and after the next is there after both. -/
theorem Extends.trans {a b c : Memory} (hab : a.Extends b) (hbc : b.Extends c) : a.Extends c :=
  fun address xs h => hbc address xs (hab address xs h)

variable {m before : Memory} {address : Nat} {xs ys : List Value}

/-- An address that is in use is below that of the next new list. -/
theorem lt_next (h : m.list? address = some xs) : address < m.next := by
  by_contra hge
  rw [list?, List.getElem?_eq_none (Nat.le_of_not_lt hge)] at h
  cases h

/-- A new list is found at its address. -/
@[simp] theorem list?_allocate_next (m : Memory) (xs : List Value) :
    (m.allocate xs).list? m.next = some xs := List.getElem?_concat_length

/-- A new list has an address of its own. -/
theorem extends_allocate (m : Memory) (xs : List Value) : m.Extends (m.allocate xs) := by
  intro address ys h
  have hlt : address < m.lists.length := lt_next h
  rw [list?, allocate, List.getElem?_append_left hlt]
  exact h

/-- Another list is found where it was put. -/
theorem list?_put (h : m.list? address = some xs) (ys : List Value) :
    (m.put address ys).list? address = some ys := List.getElem?_set_self (lt_next h)

/-- What is put at an address that was not in use before is none of the lists from before. -/
theorem Extends.put (h : before.Extends m) (hnew : before.next ≤ address) (ys : List Value) :
    before.Extends (m.put address ys) := by
  intro other zs hother
  have hne : address ≠ other := Nat.ne_of_gt (Nat.lt_of_lt_of_le (lt_next hother) hnew)
  rw [list?, Memory.put, List.getElem?_set_ne hne]
  exact h other zs hother

/-- Putting a list where it is changes nothing. -/
theorem put_self (h : m.list? address = some xs) : m.put address xs = m := by
  obtain ⟨hlt, rfl⟩ := List.getElem?_eq_some_iff.1 h
  rw [put, List.set_getElem_self]

/-- Of two lists put at one address the second one stays. -/
@[simp] theorem put_put (m : Memory) (address : Nat) (xs ys : List Value) :
    (m.put address xs).put address ys = m.put address ys := by
  rw [put, put, put, List.set_set]

end Memory

namespace Pyramid

/-! ### One row -/

/-- A row with elements put into some of its columns. -/
def fill (row : List Value) : (columns : List Nat) → (elements : List Value) → List Value
  | [], _ => row
  | _ :: _, [] => row
  | column :: columns, v :: elements => fill (row.set column v) columns elements

/-- No column is added. -/
@[simp] theorem length_fill (row : List Value) (columns : List Nat) (elements : List Value) :
    (fill row columns elements).length = row.length := by
  induction columns generalizing row elements with
  | nil => rw [fill]
  | cons column columns ih =>
    cases elements with
    | nil => rw [fill]
    | cons v elements => rw [fill, ih, List.length_set]

/-- **Placing elements** in columns of a row: if there are enough of both, the row is filled and the
    other elements are left. -/
theorem place_eq {m : Memory} {address : Nat} {row : List Value} {columns : List Nat}
    {elements : List Value} (hrow : m.list? address = some row)
    (hcolumns : ∀ column ∈ columns, column < row.length)
    (helements : columns.length ≤ elements.length) :
    place m address columns elements =
      (m.put address (fill row columns elements), .ok (elements.drop columns.length)) := by
  induction columns generalizing m row elements with
  | nil => rw [place, fill, Memory.put_self hrow, List.length_nil, List.drop_zero]
  | cons column columns ih =>
    cases elements with
    | nil => simp at helements
    | cons v elements =>
      obtain ⟨hcolumn, hrest⟩ := List.forall_mem_cons.1 hcolumns
      have hput : m.putCell? address column v = some (m.put address (row.set column v)) := by
        simp only [Memory.putCell?, hrow, if_pos hcolumn]
      have hnext := ih (Memory.list?_put hrow (row.set column v)) (by simpa using hrest)
        (Nat.le_of_succ_le_succ helements)
      simp only [place, hput, hnext, Memory.put_put, fill, List.length_cons, List.drop_succ_cons]

/-- Other columns stay as they are. -/
theorem getElem?_fill_of_notMem {row : List Value} {columns : List Nat} {elements : List Value}
    {c : Nat} (hc : c ∉ columns) : (fill row columns elements)[c]? = row[c]? := by
  induction columns generalizing row elements with
  | nil => rw [fill]
  | cons column columns ih =>
    rw [List.mem_cons, not_or] at hc
    cases elements with
    | nil => rw [fill]
    | cons v elements => rw [fill, ih hc.2, List.getElem?_set_ne (Ne.symm hc.1)]

/-- Each element is in its column, if no column is filled twice. -/
theorem getElem?_fill {row : List Value} {columns : List Nat} {elements : List Value} {j c : Nat}
    (hnodup : columns.Nodup) (hj : columns[j]? = some c) (hc : c < row.length)
    (helements : columns.length ≤ elements.length) :
    (fill row columns elements)[c]? = elements[j]? := by
  induction columns generalizing row elements j with
  | nil => simp at hj
  | cons column columns ih =>
    obtain ⟨hfresh, hnodup'⟩ := List.nodup_cons.1 hnodup
    cases elements with
    | nil => simp at helements
    | cons v elements =>
      rw [fill]
      cases j with
      | zero =>
        obtain rfl : column = c := Option.some.inj hj
        rw [getElem?_fill_of_notMem hfresh, List.getElem?_set_self hc, List.getElem?_cons_zero]
      | succ j =>
        rw [List.getElem?_cons_succ] at hj ⊢
        exact ih hnodup' hj (by simpa using hc) (Nat.le_of_succ_le_succ helements)

/-- The columns for elements are two apart. -/
theorem mem_columns_iff {height r c : Nat} :
    c ∈ columns height r ↔ ∃ j ≤ r, c = height - (r + 1) + 2 * j := by
  simp only [columns, List.mem_range', Nat.lt_succ_iff, Nat.sub_sub]

/-- **The filled columns** of a row of zeros make a row of the pyramid. -/
theorem fill_columns {height r : Nat} {elements : List Value} (hr : r < height)
    (helements : r + 1 ≤ elements.length) :
    fill (List.replicate (2 * height - 1) (.integer 0)) (columns height r) elements =
      row height (elements.take (r + 1)) := by
  have hcount : (elements.take (r + 1)).length = r + 1 := by
    rw [List.length_take]
    omega
  have hwidth : (row height (elements.take (r + 1))).length = 2 * height - 1 :=
    length_row (by omega) (by omega)
  apply List.ext_getElem?
  intro c
  rcases Nat.lt_or_ge c (2 * height - 1) with hc | hc
  · by_cases hmem : c ∈ columns height r
    · obtain ⟨j, hj, rfl⟩ := mem_columns_iff.1 hmem
      have hcolumn : (columns height r)[j]? = some (height - (r + 1) + 2 * j) := by
        rw [columns, List.getElem?_range' (by omega), Nat.sub_sub]
      have hnodup : (columns height r).Nodup := List.nodup_range' 2
      have hplaced : (row height (elements.take (r + 1)))[height -
          (elements.take (r + 1)).length + 2 * j]? = (elements.take (r + 1))[j]? :=
        getElem?_row_placed (by omega)
      rw [hcount, List.getElem?_take_of_lt (by omega)] at hplaced
      rw [hplaced]
      exact getElem?_fill hnodup hcolumn (by rwa [List.length_replicate]) (by simpa [columns])
    · rw [getElem?_fill_of_notMem hmem, List.getElem?_replicate_of_lt hc]
      refine (getElem?_row_vacant (by omega) hc fun j hj heq => ?_).symm
      rw [hcount] at hj heq
      exact hmem (mem_columns_iff.2 ⟨j, by omega, heq⟩)
  · rw [List.getElem?_eq_none (by simpa using hc), List.getElem?_eq_none (by omega)]

/-! ### All rows -/

/-- **The rows that are placed,** if there are enough elements: new lists, which hold the rows of the
    pyramid. -/
theorem placeRows_cases {height r count : Nat} {m : Memory} {elements : List Value}
    (hheight : r + count ≤ height)
    (helements : triangular (r + count) ≤ triangular r + elements.length) :
    ∃ after addresses, placeRows height m r count elements = (after, .ok addresses) ∧
      m.Extends after ∧
      addresses.map after.list? = (rowsFrom height (r + 1) count elements).map some := by
  induction count generalizing m r elements with
  | zero => exact ⟨m, [], rfl, .refl m, rfl⟩
  | succ count ih =>
    have hnext := triangular_succ r
    have hmono : triangular (r + 1) ≤ triangular (r + (count + 1)) := triangular_mono (by omega)
    have hsum : r + 1 + count = r + (count + 1) := by omega
    have hcolumns : ∀ column ∈ columns height r,
        column < (List.replicate (2 * height - 1) (Value.integer 0)).length := by
      intro column hcolumn
      obtain ⟨j, hj, rfl⟩ := mem_columns_iff.1 hcolumn
      rw [List.length_replicate]
      omega
    have hlength : (columns height r).length = r + 1 := List.length_range'
    have hplace := place_eq (m.list?_allocate_next _) hcolumns (by omega : _ ≤ elements.length)
    rw [hlength, fill_columns (by omega) (by omega)] at hplace
    have hroom : triangular (r + 1 + count) ≤
        triangular (r + 1) + (elements.drop (r + 1)).length := by
      rw [hsum, List.length_drop]
      omega
    obtain ⟨after, addresses, hrows, hextends, hshown⟩ := @ih (r + 1)
      ((m.allocate (List.replicate (2 * height - 1) (.integer 0))).put m.next
        (row height (elements.take (r + 1)))) (elements.drop (r + 1)) (by omega) hroom
    refine ⟨after, m.next :: addresses, ?_, ?_, ?_⟩
    · simp only [placeRows, hplace, hrows]
    · exact ((m.extends_allocate _).put (le_refl _) _).trans hextends
    · -- The rows behind do not touch the one that has been placed.
      have hrow := hextends _ _ (Memory.list?_put (m.list?_allocate_next _)
        (row height (elements.take (r + 1))))
      rw [List.map_cons, hrow, hshown, rowsFrom, List.map_cons]

/-! ### The pyramid -/

/-- A memory with addresses shows the pyramid, or the reason is given why there is none. -/
def Shows (result : Memory × Except Stop (List Nat)) : Except Error (List (List Value)) → Prop
  | .error e => result.2 = .error (.refused e)
  | .ok rows => ∃ addresses, result.2 = .ok addresses ∧
      addresses.map result.1.list? = rows.map some

/-- **The two ways to build a pyramid agree,** and the lists that were in memory are still there. -/
theorem buildAt_shows {m : Memory} {input : Option Nat} {elements : List Value}
    (hinput : input.bind m.list? = some elements) :
    m.Extends (buildAt m input).1 ∧ Shows (buildAt m input) (ofList elements) := by
  simp only [buildAt, hinput, ofList]
  cases hsort : Sorting.sort? Value.less? elements with
  | none => exact ⟨m.extends_allocate elements, rfl⟩
  | some sorted =>
    have harranged : m.Extends ((m.allocate elements).put m.next sorted) :=
      (m.extends_allocate elements).put (le_refl _) sorted
    simp only [heightOrMinusOne_natCast]
    cases hheight : height? sorted.length with
    | none => exact ⟨harranged, rfl⟩
    | some height =>
      cases height with
      | zero => exact ⟨harranged, rfl⟩
      | succ height =>
        have hpos : ¬ ((height + 1 : Nat) : Int) ≤ 0 := by omega
        have hcount : triangular (height + 1) = sorted.length := height?_eq_some_iff.1 hheight
        have hroom : triangular (0 + (height + 1)) ≤ triangular 0 + sorted.length := by
          rw [Nat.zero_add, hcount]
          exact Nat.le_add_left _ _
        obtain ⟨after, addresses, hrows, hextends, hshown⟩ := @placeRows_cases (height + 1) 0
          (height + 1) ((m.allocate elements).put m.next sorted) sorted (by omega) hroom
        simp only [Option.elim_some, if_neg hpos, Int.toNat_natCast, hrows]
        exact ⟨harranged.trans hextends, addresses, rfl, hshown⟩

/-- **Numbers make a pyramid**, if there are as many as it has room for: it shows them in the one
    stable order of their exact values.  They are placed without a step that cannot be taken, so
    there is an element for every column and a column for every element; the memory shows the
    pyramid at the addresses of its rows, and the lists from before are still there. -/
theorem build_layout {m : Memory} {input : Option Nat} {elements : List Value} {height : Nat}
    (hpos : 1 ≤ height) (hinput : input.bind m.list? = some elements)
    (hlength : elements.length = triangular height) (hnumbers : ∀ v ∈ elements, v.IsNumber) :
    ∃ sorted rows addresses, (buildAt m input).2 = .ok addresses ∧
      addresses.map (buildAt m input).1.list? = rows.map some ∧
      m.Extends (buildAt m input).1 ∧ build (.list elements) = .ok rows ∧
      IsPyramid height sorted rows ∧
      Sorting.IsStableOrder Value.exactValue elements sorted ∧
      ∀ other, Sorting.IsStableOrder Value.exactValue elements other → other = sorted := by
  obtain ⟨sorted, hlist, hpyramid, hstable⟩ := ofList_of_isNumber hpos hlength hnumbers
  obtain ⟨hextends, hshows⟩ := buildAt_shows hinput
  rw [hlist] at hshows
  obtain ⟨addresses, houtcome, hshown⟩ := hshows
  exact ⟨sorted, rows height sorted, addresses, houtcome, hshown, hextends, hlist, hpyramid, hstable,
    fun _ hother => hother.unique hstable⟩

/-- An integer and a truth value of the same exact value keep their order, below an infinity. -/
theorem build_layout_equal :
    let elements : List Value := [.real (.infinity false), .integer 1, .bool true]
    ∃ rows addresses, (buildAt ⟨[elements]⟩ (some 0)).2 = .ok addresses ∧
      addresses.map (buildAt ⟨[elements]⟩ (some 0)).1.list? = rows.map some ∧
      IsPyramid 2 [.integer 1, .bool true, .real (.infinity false)] rows := by
  intro elements
  -- The three elements are put into their order one by one.
  have hfirst : Sorting.IsStableOrder Value.exactValue [.real (.infinity false)]
      ([] ++ [.real (.infinity false)]) :=
    .of_ascending (List.pairwise_singleton _ _)
  have hsecond : Sorting.IsStableOrder Value.exactValue [.real (.infinity false), .integer 1]
      ([.integer 1] ++ [.real (.infinity false)]) :=
    hfirst.insert (by simp) (List.forall_mem_singleton.2 (Value.coe_lt_infinite _))
  have hthird : Sorting.IsStableOrder Value.exactValue elements
      [.integer 1, .bool true, .real (.infinity false)] :=
    hsecond.insert (List.forall_mem_singleton.2 (le_refl _))
      (List.forall_mem_singleton.2 (Value.coe_lt_infinite _))
  have hnumbers : ∀ v ∈ elements, v.IsNumber := by decide
  obtain ⟨sorted, rows, addresses, houtcome, hshown, -, -, hpyramid, -, hunique⟩ :=
    @build_layout ⟨[elements]⟩ (some 0) elements 2 (Nat.le_succ 1) rfl rfl hnumbers
  rw [← hunique _ hthird] at hpyramid
  exact ⟨rows, addresses, houtcome, hshown, hpyramid⟩

end Pyramid

end Reckoner

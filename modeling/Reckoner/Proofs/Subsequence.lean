import Mathlib.Data.List.NodupEquivFin
import Reckoner.Subsequence

namespace Reckoner.Subsequence

/-!
# The search misses no subsequence

The search takes for each element the first match that is left.  A later match would leave less to
search, so nothing is lost by that, however many matches there are.  The argument moves matches to
the front one element at a time and never compares an element with itself, so it holds for every
relation of elements, reflexive or not.

* `Embeds same xs ys`: positions in the second list that match the first one, in its order.
* `sublistForall₂_iff_embeds`: the same as a relation along both lists.
* `search_eq_true_iff`: the search finds positions if and only if there are some.
* `find_of_elements?`: the search on lists and texts.
-/

variable {α β : Type}

/-- There are positions in the second list, one for each element of the first one and in ascending
    order, at which the elements match. -/
def Embeds (same : α → β → Bool) (xs : List α) (ys : List β) : Prop :=
  ∃ position : Fin xs.length → Fin ys.length,
    StrictMono position ∧ ∀ j, same (xs.get j) (ys.get (position j)) = true

/-! ### Positions -/

/-- Matching elements in order, without naming their positions. -/
theorem sublistForall₂_iff_embeds {same : α → β → Bool} {xs : List α} {ys : List β} :
    List.SublistForall₂ (fun x y => same x y = true) xs ys ↔ Embeds same xs ys := by
  rw [List.sublistForall₂_iff]
  constructor
  · rintro ⟨matched, hmatched, hsublist⟩
    obtain ⟨f, hf⟩ := List.sublist_iff_exists_fin_orderEmbedding_get_eq.1 hsublist
    obtain ⟨hlength, hsame⟩ := List.forall₂_iff_get.1 hmatched
    refine ⟨fun j => f (j.cast hlength), fun i j hij => f.strictMono hij, fun j => ?_⟩
    rw [← hf]
    exact hsame j.1 j.2 (hlength ▸ j.2)
  · rintro ⟨position, hmono, hsame⟩
    -- What is matched are the elements at the positions.
    refine ⟨List.ofFn fun j => ys.get (position j), ?_, ?_⟩
    · refine List.forall₂_iff_get.2 ⟨by simp, fun i hi _ => ?_⟩
      rw [List.get_ofFn]
      exact hsame ⟨i, hi⟩
    · refine List.sublist_iff_exists_fin_orderEmbedding_get_eq.2
        ⟨OrderEmbedding.ofStrictMono (fun j => position (j.cast (by simp))) ?_, fun j => ?_⟩
      · intro i j hij
        exact hmono hij
      · rw [List.get_ofFn]
        rfl

/-! ### The search -/

/-- What matches with an element in front matches without it. -/
theorem sublistForall₂_of_cons {related : α → β → Prop} {x : α} {xs : List α} {ys : List β}
    (h : List.SublistForall₂ related (x :: xs) ys) : List.SublistForall₂ related xs ys := by
  induction ys with
  | nil => cases h
  | cons y ys ih =>
    cases h with
    | cons _ hrest => exact hrest.cons_right
    | cons_right hrest => exact (ih hrest).cons_right

/-- **The search finds what there is.**  If the elements in front match, the others can be matched
    behind them: a solution that leaves this match out has the first element further behind, and the
    others behind that. -/
theorem search_eq_true_iff {same : α → β → Bool} {xs : List α} {ys : List β} :
    search same xs ys = true ↔ Embeds same xs ys := by
  rw [← sublistForall₂_iff_embeds]
  fun_induction search same xs ys with
  | case1 ys => exact iff_of_true rfl .nil
  | case2 x xs => exact iff_of_false Bool.false_ne_true (fun h => nomatch h)
  | case3 x xs y ys hsame ih =>
    rw [ih]
    constructor
    · exact fun h => .cons hsame h
    · intro h
      cases h with
      | cons _ hrest => exact hrest
      | cons_right hrest => exact sublistForall₂_of_cons hrest
  | case4 x xs y ys hsame ih =>
    rw [ih]
    constructor
    · exact fun h => .cons_right h
    · intro h
      cases h with
      | cons hfront _ => exact absurd hfront hsame
      | cons_right hrest => exact hrest

/-! ### Lists and texts -/

/-- The elements of a list, or the characters of a text. -/
def elements? : Value → Option (List Value)
  | .list items => some items
  | .text s => some (s.toList.map fun c => .text (String.singleton c))
  | _ => none

/-- Lists and texts are searched. -/
theorem find_eq_search {x y : Value} {xs ys : List Value} (hx : elements? x = some xs)
    (hy : elements? y = some ys) : find x y = .ok (search Value.equal xs ys) := by
  cases x <;> cases hx <;> cases y <;> cases hy <;> rfl

/-- The not-a-number equals nothing, itself included. -/
theorem equal_nan (v : Value) : Value.equal (.real .nan) v = false := by
  cases v <;> rfl

/-- **The search on lists and texts** comes to an answer, and the answer is yes if and only if the
    second one has, in ascending order, positions whose elements are equal to those of the first
    one.  A first one with the not-a-number is never found, not even in itself. -/
theorem find_of_elements? {x y : Value} {xs ys : List Value} (hx : elements? x = some xs)
    (hy : elements? y = some ys) :
    ∃ found, find x y = .ok found ∧ (found = true ↔ Embeds Value.equal xs ys) ∧
      (Value.real .nan ∈ xs → found = false) := by
  refine ⟨search Value.equal xs ys, find_eq_search hx hy, search_eq_true_iff, fun hnan => ?_⟩
  rw [Bool.eq_false_iff, Ne, search_eq_true_iff]
  rintro ⟨position, -, hequal⟩
  obtain ⟨j, hj⟩ := List.mem_iff_get.1 hnan
  have hsame := hequal j
  rw [hj, equal_nan] at hsame
  cases hsame

/-- Among several equal elements there is always a match for the next one; the not-a-number has
    none. -/
theorem find_of_elements?_repeated :
    find (.list [.integer 1, .text "b"]) (.list [.bool true, .integer 1, .text "a", .text "b"]) =
        .ok true ∧
      find (.list [.real .nan]) (.list [.real .nan]) = .ok false := by
  constructor
  · obtain ⟨found, hfind, hiff, -⟩ := find_of_elements?
      (x := .list [.integer 1, .text "b"])
      (y := .list [.bool true, .integer 1, .text "a", .text "b"]) rfl rfl
    have hascending : StrictMono [(1 : Fin 4), 3].get := by
      intro i j
      revert i j
      decide
    have hfound : found = true := hiff.2 ⟨[(1 : Fin 4), 3].get, hascending, by decide +kernel⟩
    rw [hfind, hfound]
  · obtain ⟨found, hfind, -, hnan⟩ := find_of_elements?
      (x := .list [.real .nan]) (y := .list [.real .nan]) rfl rfl
    rw [hfind, hnan List.mem_cons_self]

end Reckoner.Subsequence

import Mathlib.Data.List.Pairwise
import Mathlib.Order.Lattice
import Reckoner.Value.Sorting

namespace Reckoner

/-!
# Where everything is comparable, sorting is stable

A list in stable order holds the elements of another one, ascending by their keys, and those of
equal keys in the order in which they were given.  There is one such list, and the sort finds it if
the elements that it has to do with are compared by their keys: each part of it, the leading run as
well as the bisection, keeps a stable order of what has been read so far.

* `Sorting.IsStableOrder key xs ys`: `ys` is the stable order of `xs`.
* `Sorting.IsStableOrder.unique`: there is one.
* `Sorting.exists_leadingRun?`: the leading run is in stable order.
* `Sorting.exists_insert?`: where bisection puts an element.
* `Sorting.exists_sort?`: the sort gives the stable order.
-/

namespace Sorting

variable {α β : Type} [LinearOrder β] {key : α → β}

/-- Ascending by a key is transitive. -/
theorem isTrans_le_key (key : α → β) : IsTrans α fun a b => key a ≤ key b := ⟨fun _ _ _ => le_trans⟩

/-- So is strictly ascending. -/
theorem isTrans_lt_key (key : α → β) : IsTrans α fun a b => key a < key b := ⟨fun _ _ _ => lt_trans⟩

/-! ### Stable orders -/

/-- The elements of a list in ascending order of their keys, those of equal keys in the order of the
    list. -/
structure IsStableOrder (key : α → β) (xs ys : List α) : Prop where
  perm : ys.Perm xs
  ascending : ys.Pairwise fun a b => key a ≤ key b
  stable : ∀ k, ys.filter (fun a => key a = k) = xs.filter fun a => key a = k

/-- What is above a key has other keys. -/
theorem filter_eq_nil_of_lt {xs : List α} {k : β} (h : ∀ a ∈ xs, k < key a) :
    xs.filter (fun a => key a = k) = [] := by
  simp only [List.filter_eq_nil_iff, decide_eq_true_eq]
  exact fun a ha => ne_of_gt (h a ha)

namespace IsStableOrder

/-- A list in ascending order is its own stable order. -/
theorem of_ascending {xs : List α} (h : xs.Pairwise fun a b => key a ≤ key b) :
    IsStableOrder key xs xs := ⟨.refl _, h, fun _ => rfl⟩

/-- A strictly descending list is turned round: no two keys are equal. -/
theorem of_descending {ys : List α} (h : ys.Pairwise fun a b => key a < key b) :
    IsStableOrder key ys.reverse ys where
  perm := (List.reverse_perm ys).symm
  ascending := h.imp le_of_lt
  stable := by
    intro k
    induction ys with
    | nil => rfl
    | cons y ys ih =>
      obtain ⟨hy, hys⟩ := List.pairwise_cons.1 h
      rw [List.reverse_cons, List.filter_append, ← ih hys]
      by_cases hk : key y = k
      · have hnone := filter_eq_nil_of_lt fun a ha => hk ▸ hy a ha
        simp [hk, hnone]
      · simp [hk]

/-- **A further element** goes behind all that are not above it. -/
theorem insert {xs below above : List α} {x : α} (h : IsStableOrder key xs (below ++ above))
    (hbelow : ∀ a ∈ below, key a ≤ key x) (habove : ∀ a ∈ above, key x < key a) :
    IsStableOrder key (xs ++ [x]) (below ++ x :: above) where
  perm := by
    have hmiddle : (below ++ x :: above).Perm (x :: (below ++ above)) := List.perm_middle
    have hend : (xs ++ [x]).Perm (x :: xs) := List.perm_append_singleton x xs
    exact hmiddle.trans ((h.perm.cons x).trans hend.symm)
  ascending := by
    obtain ⟨hlower, hupper, hacross⟩ := List.pairwise_append.1 h.ascending
    refine List.pairwise_append.2 ⟨hlower, List.pairwise_cons.2 ⟨?_, hupper⟩, ?_⟩
    · exact fun a ha => le_of_lt (habove a ha)
    · intro a ha b hb
      rcases List.mem_cons.1 hb with rfl | hb
      · exact hbelow a ha
      · exact hacross a ha b hb
  stable := by
    intro k
    have hstable := h.stable k
    rw [List.filter_append] at hstable
    rw [List.filter_append, List.filter_append, ← hstable, List.append_assoc]
    congr 1
    by_cases hk : key x = k
    · -- None of the elements behind has the same key.
      have hnone := filter_eq_nil_of_lt fun a ha => hk ▸ habove a ha
      simp [hk, hnone]
    · simp [hk]

/-- The first of two sorted lists with the same elements of each key starts with a least element. -/
theorem head_le {a b : α} {ys zs : List α} (h : (a :: ys).Pairwise fun a b => key a ≤ key b)
    (hstable : ∀ k, (a :: ys).filter (fun c => key c = k) = (b :: zs).filter fun c => key c = k) :
    key a ≤ key b := by
  have hb : b ∈ (a :: ys).filter fun c => key c = key b := by
    rw [hstable]
    simp
  rcases List.mem_cons.1 (List.mem_filter.1 hb).1 with rfl | hmem
  · exact le_refl _
  · exact (List.pairwise_cons.1 h).1 b hmem

/-- Sorted lists with the same elements of each key, in the same order, are the same. -/
theorem eq_of_filter {ys zs : List α} (hys : ys.Pairwise fun a b => key a ≤ key b)
    (hzs : zs.Pairwise fun a b => key a ≤ key b)
    (hstable : ∀ k, ys.filter (fun c => key c = k) = zs.filter fun c => key c = k) : ys = zs := by
  induction ys generalizing zs with
  | nil =>
    cases zs with
    | nil => rfl
    | cons b zs =>
      have hb := hstable (key b)
      simp at hb
  | cons a ys ih =>
    cases zs with
    | nil =>
      have ha := hstable (key a)
      simp at ha
    | cons b zs =>
      have hkey : key a = key b :=
        le_antisymm (head_le hys hstable) (head_le hzs fun k => (hstable k).symm)
      -- The two first elements are the first ones of their key.
      have hhead := hstable (key b)
      rw [List.filter_cons_of_pos (by simp [hkey]), List.filter_cons_of_pos (by simp)] at hhead
      obtain rfl := (List.cons.inj hhead).1
      congr 1
      refine ih (List.pairwise_cons.1 hys).2 (List.pairwise_cons.1 hzs).2 ?_
      intro k
      have hk := hstable k
      by_cases ha : key a = k
      · rw [List.filter_cons_of_pos (by simp [ha]), List.filter_cons_of_pos (by simp [ha])] at hk
        exact (List.cons.inj hk).2
      · rwa [List.filter_cons_of_neg (by simp [ha]), List.filter_cons_of_neg (by simp [ha])] at hk

/-- **There is one stable order.** -/
theorem unique {xs ys zs : List α} (hys : IsStableOrder key xs ys)
    (hzs : IsStableOrder key xs zs) : ys = zs :=
  eq_of_filter hys.ascending hzs.ascending fun k => (hys.stable k).trans (hzs.stable k).symm

end IsStableOrder

/-! ### The sort -/

/-- A list is what is in front of one of its elements, the element and the rest. -/
theorem eq_take_append {xs above : List α} {x : α} {n : Nat} (h : xs.drop n = x :: above) :
    xs = xs.take n ++ x :: above := by
  rw [← h, List.take_append_drop]

section

variable {less? : α → α → Option Bool} {P : α → Prop}
  (hless : ∀ a b, P a → P b → less? a b = some (decide (key a < key b)))

include hless

/-- An ascending run goes on as far as it can. -/
theorem exists_ascending? {last : α} {xs : List α} (hlast : P last) (hxs : ∀ a ∈ xs, P a) :
    ∃ run rest, ascending? less? last xs = some (run, rest) ∧ xs = run ++ rest ∧
      (last :: run).Pairwise fun a b => key a ≤ key b := by
  induction xs generalizing last with
  | nil => exact ⟨[], [], rfl, rfl, List.pairwise_singleton _ _⟩
  | cons x xs ih =>
    obtain ⟨hx, hrest⟩ := List.forall_mem_cons.1 hxs
    simp only [ascending?, hless x last hx hlast]
    by_cases hbelow : key x < key last
    · refine ⟨[], x :: xs, ?_, rfl, List.pairwise_singleton _ _⟩
      simp [hbelow]
    · obtain ⟨run, rest, hrun, rfl, hsorted⟩ := ih hx hrest
      have := isTrans_le_key key
      exact ⟨x :: run, rest, by simp [hbelow, hrun], rfl,
        hsorted.cons_cons_of_trans (le_of_not_gt hbelow)⟩

/-- A strictly descending run goes on as far as it can, and is turned round. -/
theorem exists_descending? {last : α} {above xs : List α} (hlast : P last) (hxs : ∀ a ∈ xs, P a)
    (hsorted : (last :: above).Pairwise fun a b => key a < key b) :
    ∃ run rest, descending? less? last above xs = some (run, rest) ∧
      (last :: above).reverse ++ xs = run.reverse ++ rest ∧
      run.Pairwise fun a b => key a < key b := by
  induction xs generalizing last above with
  | nil => exact ⟨last :: above, [], rfl, rfl, hsorted⟩
  | cons x xs ih =>
    obtain ⟨hx, hrest⟩ := List.forall_mem_cons.1 hxs
    simp only [descending?, hless x last hx hlast]
    by_cases hbelow : key x < key last
    · have := isTrans_lt_key key
      have hlonger : (x :: last :: above).Pairwise fun a b => key a < key b :=
        hsorted.cons_cons_of_trans hbelow
      obtain ⟨run, rest, hrun, hsplit, hdescending⟩ := ih hx hrest hlonger
      refine ⟨run, rest, by simp [hbelow, hrun], ?_, hdescending⟩
      rw [← hsplit, List.reverse_cons (a := x), List.append_assoc, List.singleton_append]
    · exact ⟨last :: above, x :: xs, by simp [hbelow], rfl, hsorted⟩

/-- **The leading run is in stable order.** -/
theorem exists_leadingRun? {xs : List α} (hxs : ∀ a ∈ xs, P a) :
    ∃ run front rest, leadingRun? less? xs = some (run, rest) ∧ xs = front ++ rest ∧
      IsStableOrder key front run := by
  rcases xs with _ | ⟨x, _ | ⟨y, xs⟩⟩
  · exact ⟨[], [], [], rfl, rfl, .of_ascending List.Pairwise.nil⟩
  · exact ⟨[x], [x], [], rfl, rfl, .of_ascending (List.pairwise_singleton _ _)⟩
  · obtain ⟨hx, hxs'⟩ := List.forall_mem_cons.1 hxs
    obtain ⟨hy, hrest⟩ := List.forall_mem_cons.1 hxs'
    simp only [leadingRun?, hless y x hy hx]
    by_cases hbelow : key y < key x
    · have hpair : [y, x].Pairwise fun a b => key a < key b := by simpa using hbelow
      obtain ⟨run, rest, hrun, hsplit, hdescending⟩ := exists_descending? hless hy hrest hpair
      exact ⟨run, run.reverse, rest, by simp [hbelow, hrun], hsplit, .of_descending hdescending⟩
    · obtain ⟨run, rest, hrun, rfl, hsorted⟩ := exists_ascending? hless hy hrest
      have := isTrans_le_key key
      exact ⟨x :: y :: run, x :: y :: run, rest, by simp [hbelow, hrun], rfl,
        .of_ascending (hsorted.cons_cons_of_trans (le_of_not_gt hbelow))⟩

/-- **Where bisection puts an element:** behind all that are not above it. -/
theorem exists_insert? {x : α} {sorted : List α} (hx : P x) (hmem : ∀ a ∈ sorted, P a)
    (hsorted : sorted.Pairwise fun a b => key a ≤ key b) :
    ∃ below above, sorted = below ++ above ∧
      insert? less? x sorted = some (below ++ x :: above) ∧
      (∀ a ∈ below, key a ≤ key x) ∧ ∀ a ∈ above, key x < key a := by
  -- Along the bisection: the half without the place of the element is above or below all of it.
  fun_induction insert? less? x sorted with
  | case1 sorted hempty =>
    -- Nothing has an empty upper half but the empty list.
    have hnil : sorted = [] := by
      have hlength := congrArg List.length hempty
      rw [List.length_drop, List.length_nil] at hlength
      exact List.eq_nil_of_length_eq_zero (by omega)
    exact ⟨[], [], hnil, rfl, by simp, by simp⟩
  | case2 sorted pivot above hdrop hnone =>
    have hpivot : pivot ∈ sorted := List.mem_of_mem_drop (hdrop ▸ List.mem_cons_self)
    rw [hless x pivot hx (hmem pivot hpivot)] at hnone
    cases hnone
  | case3 sorted pivot above hdrop below htrue ih =>
    have hsplit : sorted = below ++ pivot :: above := eq_take_append hdrop
    generalize below = lower at hsplit ih
    subst hsplit
    have hpivot : key x < key pivot := by simpa [hless x pivot hx (hmem pivot (by simp))] using htrue
    obtain ⟨hlower, hupper, hacross⟩ := List.pairwise_append.1 hsorted
    obtain ⟨front, back, rfl, hinsert, hfront, hback⟩ :=
      ih (fun a ha => hmem a (List.mem_append_left _ ha)) hlower
    refine ⟨front, back ++ pivot :: above, by simp, by simp [hinsert], hfront, ?_⟩
    intro a ha
    rcases List.mem_append.1 ha with ha | ha
    · exact hback a ha
    · rcases List.mem_cons.1 ha with rfl | ha
      · exact hpivot
      · exact lt_of_lt_of_le hpivot ((List.pairwise_cons.1 hupper).1 a ha)
  | case4 sorted pivot above hdrop below hfalse ih =>
    have hsplit : sorted = below ++ pivot :: above := eq_take_append hdrop
    generalize below = lower at hsplit ih
    subst hsplit
    have hpivot : key pivot ≤ key x := by simpa [hless x pivot hx (hmem pivot (by simp))] using hfalse
    obtain ⟨hlower, hupper, hacross⟩ := List.pairwise_append.1 hsorted
    obtain ⟨front, back, rfl, hinsert, hfront, hback⟩ :=
      ih (fun a ha => hmem a (by simp [ha])) (List.pairwise_cons.1 hupper).2
    refine ⟨lower ++ pivot :: front, back, by simp, by simp [hinsert], ?_, hback⟩
    intro a ha
    rcases List.mem_append.1 ha with ha | ha
    · exact le_trans (hacross a ha pivot (by simp)) hpivot
    · rcases List.mem_cons.1 ha with rfl | ha
      · exact hpivot
      · exact hfront a ha

/-- The other elements are put in one after the other. -/
theorem exists_insertAll? {front run rest : List α} (h : IsStableOrder key front run)
    (hfront : ∀ a ∈ front, P a) (hrest : ∀ a ∈ rest, P a) :
    ∃ ys, insertAll? less? run rest = some ys ∧ IsStableOrder key (front ++ rest) ys := by
  induction rest generalizing front run with
  | nil => exact ⟨run, rfl, by rwa [List.append_nil]⟩
  | cons x rest ih =>
    obtain ⟨hx, hrest'⟩ := List.forall_mem_cons.1 hrest
    obtain ⟨below, above, rfl, hinsert, hbelow, habove⟩ :=
      exists_insert? hless hx (fun a ha => hfront a (h.perm.mem_iff.1 ha)) h.ascending
    have hlonger : ∀ a ∈ front ++ [x], P a := by
      intro a ha
      rcases List.mem_append.1 ha with ha | ha
      · exact hfront a ha
      · rwa [List.mem_singleton.1 ha]
    obtain ⟨ys, hys, hstable⟩ := ih (h.insert hbelow habove) hlonger hrest'
    refine ⟨ys, by simp only [insertAll?, hinsert, hys], ?_⟩
    rwa [List.append_assoc, List.singleton_append] at hstable

/-- **The sort gives the stable order.** -/
theorem exists_sort? {xs : List α} (hxs : ∀ a ∈ xs, P a) :
    ∃ ys, sort? less? xs = some ys ∧ IsStableOrder key xs ys := by
  obtain ⟨run, front, rest, hrun, rfl, hstable⟩ := exists_leadingRun? hless hxs
  obtain ⟨ys, hys, hsorted⟩ := exists_insertAll? hless hstable
    (fun a ha => hxs a (List.mem_append_left rest ha))
    fun a ha => hxs a (List.mem_append_right front ha)
  exact ⟨ys, by simp only [sort?, hrun, hys], hsorted⟩

end

end Sorting

end Reckoner

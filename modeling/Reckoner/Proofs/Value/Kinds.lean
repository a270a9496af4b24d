import Mathlib.Data.List.Perm.Basic
import Reckoner.Proofs.Value.Sorting
import Reckoner.Value.Order

namespace Reckoner

/-!
# What can be sorted

Suppose that elements may have kinds, and that two elements are compared if and only if they are of
one kind.  The sort puts each element into its place by comparing it with one that it has placed
before, so each part of it stops at an element of another kind than the first two, and does not stop
before.  A single element is compared with none.

* `Sorting.ComparesKinds less? kind? P`: elements are compared if they are of one kind.
* `Sorting.Alike kind? k xs`: all elements are of the kind `k`.
* `Sorting.sort?_cases`: what the sort does with two elements or more.
* `Value.Kind`, `Value.kind?`: numbers and texts are the kinds of values.
* `Value.compares_kinds`: those of one kind are compared, apart from lists.
-/

namespace Sorting

variable {α κ : Type}

/-- Elements with a property are compared if and only if they are of one kind. -/
def ComparesKinds (less? : α → α → Option Bool) (kind? : α → Option κ) (P : α → Prop) : Prop :=
  ∀ a b, P a → P b → ((less? a b).isSome ↔ ∃ k, kind? a = some k ∧ kind? b = some k)

/-- All elements are of one kind. -/
def Alike (kind? : α → Option κ) (k : κ) (xs : List α) : Prop := ∀ a ∈ xs, kind? a = some k

section

variable {less? : α → α → Option Bool} {kind? : α → Option κ} {P : α → Prop}

/-- Nothing is compared with what has the kind `k` unless it has that kind, too. -/
theorem ComparesKinds.eq_none_iff (h : ComparesKinds less? kind? P) {a b : α} {k : κ} (ha : P a)
    (hb : P b) (hk : kind? b = some k) : less? a b = none ↔ kind? a ≠ some k := by
  rw [← Option.not_isSome_iff_eq_none, h a b ha hb, hk, not_iff_not]
  exact ⟨fun ⟨_, ha, hb⟩ => ha.trans hb.symm, fun ha => ⟨k, ha, rfl⟩⟩

/-- What is compared with an element of the kind `k` is of that kind, too. -/
theorem ComparesKinds.kind?_eq (h : ComparesKinds less? kind? P) {a b : α} {k : κ} {below : Bool}
    (ha : P a) (hb : P b) (hk : kind? b = some k) (hbelow : less? a b = some below) :
    kind? a = some k := by
  by_contra hother
  rw [(h.eq_none_iff ha hb hk).2 hother] at hbelow
  cases hbelow

/-- All elements are of a kind if the first one is and the others are. -/
theorem Alike.cons_iff {k : κ} {x : α} {xs : List α} :
    Alike kind? k (x :: xs) ↔ kind? x = some k ∧ Alike kind? k xs := List.forall_mem_cons

variable (hless : ComparesKinds less? kind? P) {k : κ}
include hless

/-- An ascending run, whose first element is of some kind. -/
theorem ascending?_cases {last : α} {xs : List α} (hlast : P last) (hk : kind? last = some k)
    (hxs : ∀ a ∈ xs, P a) :
    (∃ run rest, ascending? less? last xs = some (run, rest) ∧ run ++ rest = xs ∧
      Alike kind? k run) ∨
    (ascending? less? last xs = none ∧ ¬ Alike kind? k xs) := by
  induction xs generalizing last with
  | nil => exact .inl ⟨[], [], rfl, rfl, by simp [Alike]⟩
  | cons x xs ih =>
    obtain ⟨hx, hrest⟩ := List.forall_mem_cons.1 hxs
    rw [ascending?]
    cases hbelow : less? x last with
    | none =>
      have hother := (hless.eq_none_iff hx hlast hk).1 hbelow
      exact .inr ⟨rfl, fun h => hother (Alike.cons_iff.1 h).1⟩
    | some below =>
      have hx' := hless.kind?_eq hx hlast hk hbelow
      cases below with
      | true => exact .inl ⟨[], x :: xs, rfl, rfl, by simp [Alike]⟩
      | false =>
        rcases ih hx hx' hrest with ⟨run, rest, hrun, rfl, halike⟩ | ⟨hnone, hother⟩
        · exact .inl ⟨x :: run, rest, by simp [hrun], rfl, Alike.cons_iff.2 ⟨hx', halike⟩⟩
        · exact .inr ⟨by simp [hnone], fun h => hother (Alike.cons_iff.1 h).2⟩

/-- A descending run of elements of some kind. -/
theorem descending?_cases {last : α} {above xs : List α} (hlast : P last)
    (hk : Alike kind? k (last :: above)) (hxs : ∀ a ∈ xs, P a) :
    (∃ run rest, descending? less? last above xs = some (run, rest) ∧
      (run ++ rest).Perm (last :: above ++ xs) ∧ run ≠ [] ∧ Alike kind? k run) ∨
    (descending? less? last above xs = none ∧ ¬ Alike kind? k xs) := by
  have hlast' := (Alike.cons_iff.1 hk).1
  induction xs generalizing last above with
  | nil => exact .inl ⟨last :: above, [], rfl, .refl _, by simp, hk⟩
  | cons x xs ih =>
    obtain ⟨hx, hrest⟩ := List.forall_mem_cons.1 hxs
    rw [descending?]
    cases hbelow : less? x last with
    | none =>
      have hother := (hless.eq_none_iff hx hlast hlast').1 hbelow
      exact .inr ⟨rfl, fun h => hother (Alike.cons_iff.1 h).1⟩
    | some below =>
      have hx' := hless.kind?_eq hx hlast hlast' hbelow
      cases below with
      | true =>
        rcases ih hx (Alike.cons_iff.2 ⟨hx', hk⟩) hrest hx' with
          ⟨run, rest, hrun, hperm, hne, halike⟩ | ⟨hnone, hother⟩
        · exact .inl ⟨run, rest, hrun, hperm.trans List.perm_middle.symm, hne, halike⟩
        · exact .inr ⟨hnone, fun h => hother (Alike.cons_iff.1 h).2⟩
      | false => exact .inl ⟨last :: above, x :: xs, rfl, .refl _, by simp, hk⟩

/-- **The leading run** of two elements or more: these two settle the kind. -/
theorem leadingRun?_cases {x y : α} {xs : List α} (hxs : ∀ a ∈ x :: y :: xs, P a) :
    (∃ k run rest, leadingRun? less? (x :: y :: xs) = some (run, rest) ∧
      (run ++ rest).Perm (x :: y :: xs) ∧ run ≠ [] ∧ Alike kind? k run) ∨
    (leadingRun? less? (x :: y :: xs) = none ∧ ¬ ∃ k, Alike kind? k (x :: y :: xs)) := by
  obtain ⟨hx, hxs⟩ := List.forall_mem_cons.1 hxs
  obtain ⟨hy, hrest⟩ := List.forall_mem_cons.1 hxs
  rw [leadingRun?]
  cases hbelow : less? y x with
  | none =>
    refine .inr ⟨rfl, ?_⟩
    rintro ⟨k, halike⟩
    obtain ⟨hxk, hyk, -⟩ := Alike.cons_iff.1 halike |>.imp_right Alike.cons_iff.1
    exact (hless.eq_none_iff hy hx hxk).1 hbelow hyk
  | some below =>
    obtain ⟨k, hyk, hxk⟩ := (hless y x hy hx).1 (by rw [hbelow]; rfl)
    have hother (h : ¬ Alike kind? k xs) : ¬ ∃ j, Alike kind? j (x :: y :: xs) := by
      rintro ⟨j, halike⟩
      obtain ⟨hxj, -, hrest⟩ := Alike.cons_iff.1 halike |>.imp_right Alike.cons_iff.1
      obtain rfl : k = j := Option.some.inj (hxk.symm.trans hxj)
      exact h hrest
    cases below with
    | true =>
      have hpair : Alike kind? k [y, x] := by simp [Alike, hyk, hxk]
      rcases descending?_cases hless hy hpair hrest with
        ⟨run, rest, hrun, hperm, hne, halike⟩ | ⟨hnone, hstop⟩
      · exact .inl ⟨k, run, rest, hrun, hperm.trans (.swap x y xs), hne, halike⟩
      · exact .inr ⟨hnone, hother hstop⟩
    | false =>
      rcases ascending?_cases hless hy hyk hrest with
        ⟨run, rest, hrun, rfl, halike⟩ | ⟨hnone, hstop⟩
      · exact .inl ⟨k, x :: y :: run, rest, by simp [hrun], .refl _, by simp,
          Alike.cons_iff.2 ⟨hxk, Alike.cons_iff.2 ⟨hyk, halike⟩⟩⟩
      · exact .inr ⟨by simp [hnone], hother hstop⟩

/-- An element is put among others of its kind. -/
theorem exists_insert?_of_alike {x : α} {sorted : List α} (hx : P x) (hk : kind? x = some k)
    (hsorted : ∀ a ∈ sorted, P a) (halike : Alike kind? k sorted) :
    ∃ ys, insert? less? x sorted = some ys ∧ ys.Perm (x :: sorted) := by
  -- Along the bisection: the half that is gone into keeps its elements, and so does the other one.
  fun_induction insert? less? x sorted with
  | case1 sorted hempty =>
    have hnil : sorted = [] := by
      have hlength := congrArg List.length hempty
      rw [List.length_drop, List.length_nil] at hlength
      exact List.eq_nil_of_length_eq_zero (by omega)
    exact ⟨[x], rfl, by rw [hnil]⟩
  | case2 sorted pivot above hdrop hnone =>
    have hpivot : pivot ∈ sorted := List.mem_of_mem_drop (hdrop ▸ List.mem_cons_self)
    exact absurd hk ((hless.eq_none_iff hx (hsorted _ hpivot) (halike _ hpivot)).1 hnone)
  | case3 sorted pivot above hdrop below htrue ih =>
    have hsplit : sorted = below ++ pivot :: above := eq_take_append hdrop
    generalize below = lower at hsplit ih
    subst hsplit
    obtain ⟨ys, hys, hperm⟩ := ih (fun a ha => hsorted a (List.mem_append_left _ ha))
      fun a ha => halike a (List.mem_append_left _ ha)
    exact ⟨ys ++ pivot :: above, by simp [hys], hperm.append_right _⟩
  | case4 sorted pivot above hdrop below hfalse ih =>
    have hsplit : sorted = below ++ pivot :: above := eq_take_append hdrop
    generalize below = lower at hsplit ih
    subst hsplit
    obtain ⟨ys, hys, hperm⟩ := ih (fun a ha => hsorted a (by simp [ha]))
      fun a ha => halike a (by simp [ha])
    refine ⟨lower ++ pivot :: ys, by simp [hys], ?_⟩
    calc (lower ++ pivot :: ys).Perm (lower ++ pivot :: x :: above) :=
          (hperm.cons pivot).append_left lower
      _ = ((lower ++ [pivot]) ++ x :: above) := by simp
      _ |>.Perm (x :: (lower ++ [pivot] ++ above)) := List.perm_middle
      _ = x :: (lower ++ pivot :: above) := by simp

/-- An element of another kind is put nowhere: it is compared with one of the others at once. -/
theorem insert?_eq_none {x : α} {sorted : List α} (hx : P x) (hk : kind? x ≠ some k)
    (hne : sorted ≠ []) (hsorted : ∀ a ∈ sorted, P a) (halike : Alike kind? k sorted) :
    insert? less? x sorted = none := by
  have hpos : 0 < sorted.length := List.length_pos_iff.2 hne
  have hmiddle : sorted.drop (sorted.length / 2) ≠ [] := by
    rw [Ne, List.drop_eq_nil_iff]
    omega
  obtain ⟨pivot, above, hdrop⟩ := List.exists_cons_of_ne_nil hmiddle
  have hpivot : pivot ∈ sorted := List.mem_of_mem_drop (hdrop ▸ List.mem_cons_self)
  have hnone := (hless.eq_none_iff hx (hsorted _ hpivot) (halike _ hpivot)).2 hk
  rw [insert?]
  split
  · rename_i hempty
    exact absurd hempty hmiddle
  · rename_i pivot' above' hdrop'
    rw [hdrop] at hdrop'
    obtain ⟨rfl, rfl⟩ := List.cons.inj hdrop'
    simp [hnone]

/-- The other elements are put in one after the other, up to one of another kind. -/
theorem insertAll?_cases {run rest : List α} (hne : run ≠ []) (hrun : ∀ a ∈ run, P a)
    (hrest : ∀ a ∈ rest, P a) (halike : Alike kind? k run) :
    (∃ ys, insertAll? less? run rest = some ys ∧ ys.Perm (run ++ rest) ∧ Alike kind? k rest) ∨
    (insertAll? less? run rest = none ∧ ¬ Alike kind? k rest) := by
  induction rest generalizing run with
  | nil => exact .inl ⟨run, rfl, by rw [List.append_nil], by simp [Alike]⟩
  | cons x rest ih =>
    obtain ⟨hx, hrest⟩ := List.forall_mem_cons.1 hrest
    rw [insertAll?]
    by_cases hk : kind? x = some k
    · obtain ⟨ys, hys, hperm⟩ := exists_insert?_of_alike hless hx hk hrun halike
      have hmem (a : α) (ha : a ∈ ys) : a = x ∨ a ∈ run := List.mem_cons.1 (hperm.mem_iff.1 ha)
      have hne' : ys ≠ [] := by
        rintro rfl
        exact absurd hperm.length_eq (by simp)
      have hP : ∀ a ∈ ys, P a := fun a ha => (hmem a ha).elim (fun h => h ▸ hx) (hrun a)
      have halike' : Alike kind? k ys := fun a ha => (hmem a ha).elim (fun h => h ▸ hk) (halike a)
      simp only [hys]
      rcases ih hne' hP hrest halike' with ⟨zs, hzs, hperm', hrest'⟩ | ⟨hnone, hother⟩
      · refine .inl ⟨zs, hzs, ?_, Alike.cons_iff.2 ⟨hk, hrest'⟩⟩
        exact (hperm'.trans (hperm.append_right rest)).trans List.perm_middle.symm
      · exact .inr ⟨hnone, fun h => hother (Alike.cons_iff.1 h).2⟩
    · simp only [insert?_eq_none hless hx hk hne hrun halike]
      exact .inr ⟨trivial, fun h => hk (Alike.cons_iff.1 h).1⟩

/-- **What can be sorted:** a list of less than two elements, or one whose elements are all of one
    kind.  The sort loses none of them. -/
theorem sort?_cases {xs : List α} (hxs : ∀ a ∈ xs, P a) :
    (∃ ys, sort? less? xs = some ys ∧ ys.Perm xs ∧
      (xs.length < 2 ∨ ∃ k, Alike kind? k xs)) ∨
    (sort? less? xs = none ∧ 2 ≤ xs.length ∧ ¬ ∃ k, Alike kind? k xs) := by
  rcases xs with _ | ⟨x, _ | ⟨y, xs⟩⟩
  · exact .inl ⟨[], rfl, .refl _, .inl Nat.two_pos⟩
  · exact .inl ⟨[x], rfl, .refl _, .inl (Nat.lt_succ_self 1)⟩
  · have htwo : 2 ≤ (x :: y :: xs).length := Nat.le_add_left 2 xs.length
    rw [sort?]
    rcases leadingRun?_cases hless hxs with
      ⟨k, run, rest, hrun, hperm, hne, halike⟩ | ⟨hnone, hother⟩
    · simp only [hrun]
      have hP : ∀ a ∈ run ++ rest, P a := fun a ha => hxs a (hperm.mem_iff.1 ha)
      have hkind (j : κ) : Alike kind? j (x :: y :: xs) ↔ Alike kind? j (run ++ rest) := by
        simp only [Alike, hperm.mem_iff]
      rcases insertAll?_cases hless hne (fun a ha => hP a (List.mem_append_left _ ha))
        (fun a ha => hP a (List.mem_append_right _ ha)) halike with
        ⟨ys, hys, hperm', hrest⟩ | ⟨hnone, hother⟩
      · refine .inl ⟨ys, hys, hperm'.trans hperm, .inr ⟨k, (hkind k).2 ?_⟩⟩
        exact List.forall_mem_append.2 ⟨halike, hrest⟩
      · refine .inr ⟨hnone, htwo, ?_⟩
        rintro ⟨j, hj⟩
        obtain ⟨hrun', hrest'⟩ := List.forall_mem_append.1 ((hkind j).1 hj)
        -- The run is not empty, so its kind is that of all.
        obtain ⟨a, ha⟩ := List.exists_mem_of_ne_nil run hne
        obtain rfl : k = j := Option.some.inj ((halike a ha).symm.trans (hrun' a ha))
        exact hother hrest'
    · simp only [hnone]
      exact .inr ⟨trivial, htwo, hother⟩

end

end Sorting

/-! ### Values -/

namespace Value

/-- The kinds of values that are compared. -/
inductive Kind where
  | number
  | text
  deriving DecidableEq

/-- The kind of a value; a number may also be the not-a-number. -/
def kind? : Value → Option Kind
  | .bool _ => some .number
  | .integer _ => some .number
  | .real _ => some .number
  | .text _ => some .text
  | _ => none

/-- A value that is no list. -/
def isFlat : Value → Bool
  | .list _ => false
  | _ => true

/-- **Numbers are compared with numbers, and texts with texts.** -/
theorem compares_kinds : Sorting.ComparesKinds less? kind? (isFlat · = true) := by
  intro a b ha hb
  cases a <;> cases b <;> simp_all [isFlat, less?, kind?, scalar?]

end Value

end Reckoner

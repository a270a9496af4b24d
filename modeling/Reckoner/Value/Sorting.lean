namespace Reckoner

/-!
# Sorting where not everything is comparable

A stable sort by a comparison that may refuse: the sort fails as soon as two elements that are
compared have no order.  The list is taken as its leading run, which is ascending or strictly
descending, and every further element is put into place by bisection.

A list of 64 elements or more may be sorted in another way, by the merging of such runs.  Where the
comparison orders all elements, every stable sort gives the same list, so this makes no difference.
With elements that it puts nowhere, such as not-a-numbers, what is sorted here in one run may be in
another order than after a merge.

Main definitions:
* `Sorting.leadingRun?`: the run a list starts with, in ascending order, and what follows it
* `Sorting.insert?`: an element put behind all that are not above it
* `Sorting.sort?`: the sorted list
-/

namespace Sorting

variable {α : Type} (less? : α → α → Option Bool)

/-- The elements that continue an ascending run behind `last`, and what follows them. -/
def ascending? (last : α) : List α → Option (List α × List α)
  | [] => some ([], [])
  | x :: rest =>
    match less? x last with
    | none => none
    | some true => some ([], x :: rest)
    | some false => (ascending? x rest).map fun (run, rest) => (x :: run, rest)

/-- A strictly descending run turned round, with its least element `last` in front of `above`, and
    what follows it. -/
def descending? (last : α) (above : List α) : List α → Option (List α × List α)
  | [] => some (last :: above, [])
  | x :: rest =>
    match less? x last with
    | none => none
    | some true => descending? x (last :: above) rest
    | some false => some (last :: above, x :: rest)

/-- The run a list starts with, in ascending order, and what follows it. -/
def leadingRun? : List α → Option (List α × List α)
  | [] => some ([], [])
  | [x] => some ([x], [])
  | x :: y :: rest =>
    match less? y x with
    | none => none
    | some true => descending? less? y [x] rest
    | some false => (ascending? less? y rest).map fun (run, rest) => (x :: y :: run, rest)

/-- The lower half of a list that has an upper half is shorter than the list. -/
private theorem length_lower_lt {xs above : List α} {pivot : α}
    (h : xs.drop (xs.length / 2) = pivot :: above) :
    (xs.take (xs.length / 2)).length < xs.length := by
  have hlength := congrArg List.length h
  simp only [List.length_drop, List.length_cons, List.length_take] at *
  omega

/-- The upper half of a list without its first element is shorter than the list. -/
private theorem length_upper_lt {xs above : List α} {pivot : α}
    (h : xs.drop (xs.length / 2) = pivot :: above) : above.length < xs.length := by
  have hlength := congrArg List.length h
  simp only [List.length_drop, List.length_cons] at hlength
  omega

/-- An element put into a sorted list, behind all that are not above it.  It is compared with the
    middle of what is left. -/
def insert? (x : α) (sorted : List α) : Option (List α) :=
  match _h : sorted.drop (sorted.length / 2) with
  | [] => some [x]
  | pivot :: above =>
    let below := sorted.take (sorted.length / 2)
    match less? x pivot with
    | none => none
    | some true => (insert? x below).map (· ++ pivot :: above)
    | some false => (insert? x above).map (below ++ pivot :: ·)
  termination_by sorted.length
  decreasing_by
    · exact length_lower_lt _h
    · exact length_upper_lt _h

/-- Further elements put into a sorted list, one after the other. -/
def insertAll? (sorted : List α) : List α → Option (List α)
  | [] => some sorted
  | x :: rest =>
    match insert? less? x sorted with
    | none => none
    | some sorted => insertAll? sorted rest

/-- The sorted list; elements of which neither is below the other keep their order. -/
def sort? (xs : List α) : Option (List α) :=
  match leadingRun? less? xs with
  | none => none
  | some (run, rest) => insertAll? less? run rest

end Sorting

end Reckoner

import Reckoner.Value.Order

namespace Reckoner

/-!
# Subsequences

A sequence is a subsequence of another if it is what is left after some elements of the other are
removed.  The search takes for each element the first match that is left.

Main definitions:
* `Subsequence.search`: the search, for any relation of elements
* `Subsequence.Error`: the arguments that are no sequences
* `Subsequence.find`: the search on loosely typed values
-/

namespace Subsequence

/-- Whether the elements of the first list match elements of the second one, in order. -/
def search {α β : Type} (same : α → β → Bool) : List α → List β → Bool
  | [], _ => true
  | _ :: _, [] => false
  | x :: xs, y :: ys => if same x y then search same xs ys else search same (x :: xs) ys

/-- Why a pair of arguments cannot be searched. -/
inductive Error where
  /-- One of the sequences is missing. -/
  | missing
  /-- One of them is no sequence. -/
  | fault (f : Value.Fault)
  deriving DecidableEq, Repr

/-- The text of an error. -/
def Error.message : Error → String
  | .missing => "Sequences must not be None"
  | .fault f => f.message

/-- Whether the first value is a subsequence of the second.  The second is looked at first; a record
    has a length, but no positions to compare. -/
def find : Value → Value → Except Error Bool
  | .null, _ => .error .missing
  | _, .null => .error .missing
  | x, y =>
    match y.items?, x.items? with
    | none, _ => .error (.fault (.notIterable y.kindName))
    | _, none => .error (.fault (.noLength x.kindName))
    | some ys, some xs =>
      match x with
      | .record (_ :: _) =>
        if ys.isEmpty then .ok false else .error (.fault (.noPosition 0))
      | _ => .ok (search Value.equal xs ys)

end Subsequence

end Reckoner

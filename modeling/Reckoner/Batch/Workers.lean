namespace Reckoner.Batch

/-!
# Workers

The statements of a batch are shared out among workers.  The tasks wait in a queue, and a worker
that is free begins the first one that waits, so those at work are always the first of the tasks
that are not finished.  Which of them goes on next is up to the machine, so what they tell comes in
an order that only the machine knows.

Main definitions:
* `Machine`: what a batch takes from the machine that it runs on
* `Machine.workerCount`: how many workers are set to work
* `interleave`: what the workers tell, one after the other
-/

/-- The machine that a batch runs on: how many processors it has, if that is known, and which of the
    tasks at work goes on, step by step.  Once the turns are used up, each task is ended before the
    next one goes on. -/
structure Machine where
  processors : Option Nat
  turns : List Nat
  deriving DecidableEq, Repr

/-- A machine that ends each task before the next one goes on. -/
def Machine.inOrder (processors : Option Nat) : Machine := ⟨processors, []⟩

/-- As many workers as allowed, or else as there are processors, or else one, where zero counts as
    no number; but no more than there are statements, and at least one. -/
def Machine.workerCount (m : Machine) (allowed : Option Nat) (statements : Nat) : Nat :=
  let wanted := match allowed, m.processors with
    | some (n + 1), _ => n + 1
    | _, some (n + 1) => n + 1
    | _, _ => 1
  min wanted (max statements 1)

/-- What the workers tell when each task tells a list of its own.  The tasks are those that are not
    finished, and the first of them are at work, one for each worker.  In its turn a task tells the
    next it has to tell, or it is finished and the next one that waits is begun; a turn beyond the
    tasks at work is nobody's. -/
def interleave {α : Type} (workers : Nat) : (turns : List Nat) → (tasks : List (List α)) → List α
  | [], tasks => tasks.flatten
  | i :: turns, tasks =>
    match (tasks.take workers)[i]? with
    | none => interleave workers turns tasks
    | some [] => interleave workers turns (tasks.eraseIdx i)
    | some (a :: rest) => a :: interleave workers turns (tasks.set i rest)

end Reckoner.Batch

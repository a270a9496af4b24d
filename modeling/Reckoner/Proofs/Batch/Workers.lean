import Mathlib.Data.List.Basic
import Mathlib.Data.List.Perm.Basic
import Reckoner.Batch.Workers

namespace Reckoner.Batch

/-!
# What workers can tell

`Interleaved` says without any turns what workers can tell: at every step one of the first tasks that
are not finished tells the next it has to tell, or is finished.  Every machine tells something of the
kind, and everything of the kind is told by some machine.  So what is proved of the relation holds on
all machines: nothing is lost or told twice, each task tells its own in order, a task is not told of
before the earlier ones are finished but for one a worker, and one worker keeps the order of the
tasks.

* `Machine.workerCount_pos`: there is always a worker.
* `Interleaved workers tasks log`: the workers can tell `log`.
* `interleaved_iff`: what the machines tell.
* `Interleaved.perm`, `Interleaved.sublist`: it is all told, and in the order of each task.
* `Interleaved.filter`: what is kept of it is told as well.
* `Interleaved.eq_flatten`: with one worker, the tasks tell one after the other.
* `Interleaved.exists_task`: how far what is told can run ahead.
* `Interleaved.perm_singles`, `Interleaved.exists_single`, `Interleaved.eq_singles`: the same when
  each task has one thing to tell.
-/

/-- There is always a worker. -/
theorem Machine.workerCount_pos (m : Machine) (allowed : Option Nat) (statements : Nat) :
    0 < m.workerCount allowed statements := by
  unfold workerCount
  dsimp only
  split <;> omega

/-- Workers can tell the log: one of the first tasks, one for each worker, tells the next it has to
    tell or is finished, until all are. -/
inductive Interleaved {α : Type} (workers : Nat) : (tasks : List (List α)) → (log : List α) → Prop
  | done : Interleaved workers [] []
  | finish {before after : List (List α)} {log : List α} (hwork : before.length < workers)
      (h : Interleaved workers (before ++ after) log) :
      Interleaved workers (before ++ [] :: after) log
  | tell {before after : List (List α)} {log rest : List α} {a : α}
      (hwork : before.length < workers) (h : Interleaved workers (before ++ rest :: after) log) :
      Interleaved workers (before ++ (a :: rest) :: after) (a :: log)

variable {α : Type} {workers : Nat} {tasks : List (List α)} {log : List α}

/-! ### Machines -/

/-- A task at work stands in front of fewer than there are workers. -/
theorem exists_of_take_getElem? {i : Nat} {task : List α}
    (h : (tasks.take workers)[i]? = some task) :
    ∃ before after, before.length = i ∧ i < workers ∧ tasks = before ++ task :: after := by
  rw [List.getElem?_take] at h
  split at h
  case isTrue hwork =>
    obtain ⟨hi, rfl⟩ := List.getElem?_eq_some_iff.1 h
    refine ⟨tasks.take i, tasks.drop (i + 1), ?_, hwork, ?_⟩
    · rw [List.length_take, Nat.min_eq_left (Nat.le_of_lt hi)]
    · rw [List.getElem_cons_drop, List.take_append_drop]
  case isFalse => cases h

/-- The task behind some that are fewer than the workers is at work. -/
theorem take_getElem?_of_length_lt {before after : List (List α)} (task : List α)
    (hwork : before.length < workers) :
    ((before ++ task :: after).take workers)[before.length]? = some task := by
  rw [List.getElem?_take, if_pos hwork]
  simp

/-- If there is a worker, tasks can tell one after the other. -/
theorem interleaved_flatten (hpos : 0 < workers) (tasks : List (List α)) :
    Interleaved workers tasks tasks.flatten := by
  induction tasks with
  | nil => exact .done
  | cons task tasks ih =>
    induction task with
    | nil => exact @Interleaved.finish α workers [] tasks _ hpos ih
    | cons a rest ihrest => exact @Interleaved.tell α workers [] tasks _ rest a hpos ihrest

/-- What a machine tells, workers can tell.  By induction on the turns, as each is a step. -/
theorem interleaved_interleave (hpos : 0 < workers) (turns : List Nat) (tasks : List (List α)) :
    Interleaved workers tasks (interleave workers turns tasks) := by
  induction turns generalizing tasks with
  | nil => exact interleaved_flatten hpos tasks
  | cons i turns ih =>
    rw [interleave]
    split
    case h_1 => exact ih tasks
    case h_2 hturn =>
      obtain ⟨before, after, rfl, hwork, rfl⟩ := exists_of_take_getElem? hturn
      have hrest := ih (before ++ after)
      simpa [List.eraseIdx_append_of_length_le] using hrest.finish hwork
    case h_3 a rest hturn =>
      obtain ⟨before, after, rfl, hwork, rfl⟩ := exists_of_take_getElem? hturn
      have hrest := ih (before ++ rest :: after)
      simpa using hrest.tell hwork

/-- What workers can tell, some machine tells. -/
theorem Interleaved.exists_turns (h : Interleaved workers tasks log) :
    ∃ turns, interleave workers turns tasks = log := by
  induction h with
  | done => exact ⟨[], rfl⟩
  | @finish before after log hwork _ ih =>
    obtain ⟨turns, hturns⟩ := ih
    refine ⟨before.length :: turns, ?_⟩
    rw [interleave, take_getElem?_of_length_lt [] hwork]
    simpa [List.eraseIdx_append_of_length_le] using hturns
  | @tell before after log rest a hwork _ ih =>
    obtain ⟨turns, hturns⟩ := ih
    refine ⟨before.length :: turns, ?_⟩
    rw [interleave, take_getElem?_of_length_lt (a :: rest) hwork]
    simpa using hturns

/-- **What the machines tell** is what workers can tell. -/
theorem interleaved_iff (hpos : 0 < workers) :
    Interleaved workers tasks log ↔ ∃ turns, interleave workers turns tasks = log := by
  refine ⟨Interleaved.exists_turns, ?_⟩
  rintro ⟨turns, rfl⟩
  exact interleaved_interleave hpos turns tasks

/-! ### What is told -/

namespace Interleaved

/-- **All that the tasks have to tell is told,** and nothing else. -/
theorem perm (h : Interleaved workers tasks log) : log.Perm tasks.flatten := by
  induction h with
  | done => exact .nil
  | finish _ _ ih => simpa using ih
  | @tell before after log rest a _ _ ih =>
    have hcons : (a :: log).Perm (a :: (before ++ rest :: after).flatten) := ih.cons a
    refine hcons.trans ?_
    simpa using List.perm_middle.symm

/-- **Each task tells its own in order.** -/
theorem sublist (h : Interleaved workers tasks log) {task : List α} (htask : task ∈ tasks) :
    task.Sublist log := by
  induction h generalizing task with
  | done => cases htask
  | finish _ _ ih =>
    rcases List.mem_append.1 htask with hbefore | hafter
    · exact ih (List.mem_append_left _ hbefore)
    · cases hafter with
      | head => exact List.nil_sublist _
      | tail _ hafter => exact ih (List.mem_append_right _ hafter)
  | @tell before after log rest a _ _ ih =>
    rcases List.mem_append.1 htask with hbefore | hafter
    · exact (ih (List.mem_append_left _ hbefore)).cons a
    · cases hafter with
      | head => exact (ih (List.mem_append_right _ List.mem_cons_self)).cons_cons a
      | tail _ hafter =>
        exact (ih (List.mem_append_right _ (List.mem_cons_of_mem _ hafter))).cons a

/-- **What is kept of the log** is told by what is kept of the tasks. -/
theorem filter (q : α → Bool) (h : Interleaved workers tasks log) :
    Interleaved workers (tasks.map (List.filter q)) (log.filter q) := by
  induction h with
  | done => exact .done
  | @finish before after log hwork _ ih =>
    rw [List.map_append] at ih ⊢
    exact .finish (by rwa [List.length_map]) ih
  | @tell before after log rest a hwork _ ih =>
    rw [List.map_append, List.map_cons] at ih ⊢
    cases hq : q a with
    | false => simpa [hq] using ih
    | true =>
      rw [List.filter_cons_of_pos hq, List.filter_cons_of_pos hq]
      exact .tell (by rwa [List.length_map]) ih

/-- **One worker** keeps the order of the tasks: there is never one before the task at work. -/
theorem eq_flatten (h : Interleaved 1 tasks log) : log = tasks.flatten := by
  induction h with
  | done => rfl
  | @finish before after log hwork _ ih =>
    obtain rfl := List.length_eq_zero_iff.1 (Nat.lt_one_iff.1 hwork)
    exact ih
  | @tell before after log rest a hwork _ ih =>
    obtain rfl := List.length_eq_zero_iff.1 (Nat.lt_one_iff.1 hwork)
    exact congrArg (a :: ·) ih

/-- **How far what is told can run ahead.**  What is told at a place is from a task that has before
    it no more tasks than have been told of and can be at work, and those that have nothing to
    tell. -/
theorem exists_task (h : Interleaved workers tasks log) {k : Nat} {b : α}
    (hb : log[k]? = some b) :
    ∃ i task, i < k + workers + tasks.countP List.isEmpty ∧ tasks[i]? = some task ∧ b ∈ task := by
  induction h generalizing k with
  | done => cases hb
  | @finish before after log hwork _ ih =>
    obtain ⟨i, task, hi, htask, hmem⟩ := ih hb
    have hempty : (before ++ [] :: after).countP List.isEmpty =
        (before ++ after).countP List.isEmpty + 1 := by simp; omega
    -- The tasks behind the finished one have moved up by one.
    by_cases hbefore : i < before.length
    · refine ⟨i, task, by omega, ?_, hmem⟩
      rwa [List.getElem?_append_left hbefore] at htask ⊢
    · refine ⟨i + 1, task, by omega, ?_, hmem⟩
      rw [List.getElem?_append_right (by omega)] at htask ⊢
      rwa [show i + 1 - before.length = i - before.length + 1 by omega, List.getElem?_cons_succ]
  | @tell before after log rest a hwork _ ih =>
    cases k with
    | zero =>
      obtain rfl : a = b := Option.some.inj hb
      exact ⟨before.length, a :: rest, by omega, by simp, List.mem_cons_self⟩
    | succ k =>
      obtain ⟨i, task, hi, htask, hmem⟩ := ih hb
      have hempty : (before ++ rest :: after).countP List.isEmpty ≤
          (before ++ (a :: rest) :: after).countP List.isEmpty + 1 := by
        cases rest with
        | nil => simp; omega
        | cons => simp
      by_cases hi' : i = before.length
      · obtain rfl : rest = task := by simpa [hi'] using htask
        exact ⟨before.length, a :: rest, by omega, by simp, List.mem_cons_of_mem a hmem⟩
      · refine ⟨i, task, by omega, ?_, hmem⟩
        have hset : before ++ rest :: after = (before ++ (a :: rest) :: after).set before.length rest :=
          by simp
        rwa [hset, List.getElem?_set_ne (Ne.symm hi')] at htask

/-! ### Tasks with one thing to tell -/

variable {singles : List α}

/-- All of it is told. -/
theorem perm_singles (h : Interleaved workers (singles.map fun a => [a]) log) :
    log.Perm singles := by
  have hperm := h.perm
  rwa [← List.flatMap_def, List.flatMap_singleton'] at hperm

/-- What is told is from one of the first tasks that have not been told of, one for each worker. -/
theorem exists_single (h : Interleaved workers (singles.map fun a => [a]) log) {k : Nat} {b : α}
    (hb : log[k]? = some b) : ∃ i < k + workers, singles[i]? = some b := by
  obtain ⟨i, task, hi, htask, hmem⟩ := h.exists_task hb
  have hnone : (singles.map fun a => [a]).countP List.isEmpty = 0 := by
    simp [List.countP_map, Function.comp_def]
  rw [List.getElem?_map, Option.map_eq_some_iff] at htask
  obtain ⟨a, ha, rfl⟩ := htask
  obtain rfl := List.mem_singleton.1 hmem
  exact ⟨i, by omega, ha⟩

/-- One worker tells it in order. -/
theorem eq_singles (h : Interleaved 1 (singles.map fun a => [a]) log) : log = singles := by
  have hflat := h.eq_flatten
  rwa [← List.flatMap_def, List.flatMap_singleton'] at hflat

end Interleaved

end Reckoner.Batch

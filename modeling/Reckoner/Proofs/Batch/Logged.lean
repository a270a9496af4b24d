import Mathlib.Data.List.Infix
import Reckoner.Batch.Logged
import Reckoner.Proofs.Batch.Recovery
import Reckoner.Proofs.Batch.Workers

namespace Reckoner

/-!
# What a batch tells

The workers tell about each statement while they take turns, so the records of different statements
come in an order that depends on the machine.  Among those about a statement there is just one from
the worker; it is an error if and only if the line has the mark of one, and both say the same.  So
the records of the workers are those of the lines, none missing and none twice, and out of order no
more than there are workers; and the two counts at the end can be read off the results file.

* `Batch.runLogged_eq`: a batch with a logger is a batch whose records are told to it.
* `Batch.interleaved_told`: the workers take turns.
* `Log.Record.isFromWorker`: the records of the workers, told by the sign in front of them.
* `ResultLine.workerRecord`: what the worker tells about a line.
* `Batch.interleaved_filter_told`: the workers take turns with the records of the lines.
* `Batch.isMarked`: the mark of an error on a line of the results file.
* `Batch.level_workerRecord`: the mark settles the level.
* `Batch.summary_run`: the counts are those of the lines without and with the mark.
* `Batch.InStep`, `Batch.inStep_run`: records, lines and results file agree at every level up to
  `INFO`.
-/

namespace Batch

variable (m : Machine) (p : Precision) (allowed : Option Nat) (statements : List String)
  (destination : String)

/-! ### A batch with a logger -/

/-- **A batch with a logger** has the lines of the batch, and the logger has been told its
    records. -/
theorem runLogged_eq (logger : Log.Logger) :
    runLogged m p allowed statements destination logger =
      ((run m p allowed statements destination).lines,
        logger.tellAll (run m p allowed statements destination).records) := by
  unfold run
  rw [Log.Logger.tellAll_append]
  rfl

/-- The workers take turns. -/
theorem interleaved_told :
    Interleaved (m.workerCount allowed statements.length) (tasks p statements)
      (told m p allowed statements) :=
  (interleaved_iff (m.workerCount_pos allowed statements.length)).2 ⟨m.turns, rfl⟩

end Batch

/-! ### The records of the workers -/

/-- A record is from a worker if it has the sign of one in front. -/
def Log.Record.isFromWorker (r : Log.Record) : Bool := r.message.toList.head? == some '👷'

/-- What the worker tells about a line: the result, or the reason with the statement as it was
    given. -/
def ResultLine.workerRecord (line : ResultLine) : Log.Record :=
  match line.error with
  | none =>
    ⟨.info, "👷✅ Line " ++ toString line.number ++ " evaluated: " ++ line.statement ++ " = " ++
      line.result.getD "None"⟩
  | some error =>
    ⟨.error, "👷❌ Line " ++ toString line.number ++ " failed: " ++ error ++
      "\nCould not evaluate: " ++ Text.quoted line.statement⟩

namespace Batch

/-- The sign in front of a text is that of its first part. -/
theorem head?_append_of_some {c : Char} {first : String} (h : first.toList.head? = some c)
    (rest : String) : (first ++ rest).toList.head? = some c := by
  rw [String.toList_append, List.head?_append, h, Option.some_or]

/-- The sign in front of a record tells whether it is from a worker. -/
theorem isFromWorker_of_head? {r : Log.Record} {c : Char}
    (h : r.message.toList.head? = some c) : r.isFromWorker = (c == '👷') := by
  rw [Log.Record.isFromWorker, h]
  rfl

/-- What the calculator tells is not from a worker. -/
theorem isFromWorker_failureRecord (s : String) (failure : Failure) :
    (failureRecord s failure).isFromWorker = false := by
  have hsign : (failureRecord s failure).message.toList.head? = some '🧮' := by
    unfold failureRecord
    cases failure <;>
      exact head?_append_of_some (head?_append_of_some (head?_append_of_some (by decide) _) _) _
  exact isFromWorker_of_head? hsign

/-- What a worker tells is from a worker. -/
theorem isFromWorker_workerRecord (line : ResultLine) : line.workerRecord.isFromWorker = true := by
  have hsign : line.workerRecord.message.toList.head? = some '👷' := by
    unfold ResultLine.workerRecord
    cases line.error <;> simp only [String.append_assoc] <;>
      exact head?_append_of_some (by decide) _
  exact isFromWorker_of_head? hsign

/-- What is told when a batch begins is not from a worker. -/
theorem isFromWorker_startRecord (workers count : Nat) :
    (startRecord workers count).isFromWorker = false := by
  have hsign : (startRecord workers count).message.toList.head? = some '🖥' := by
    simp only [startRecord, String.append_assoc]
    exact head?_append_of_some (by decide) _
  exact isFromWorker_of_head? hsign

/-- What is told when a batch ends is not from a worker. -/
theorem isFromWorker_writtenRecord (destination : String) :
    (writtenRecord destination).isFromWorker = false := by
  have hsign : (writtenRecord destination).message.toList.head? = some '✉' :=
    head?_append_of_some (by decide) _
  exact isFromWorker_of_head? hsign

/-- The counts are not from a worker. -/
theorem isFromWorker_summary (report : Report) : report.summary.isFromWorker = false := by
  have hsign : report.summary.message.toList.head? = some '🏁' := by
    simp only [Report.summary, String.append_assoc]
    exact head?_append_of_some (by decide) _
  exact isFromWorker_of_head? hsign

/-- **About each statement there is one record from a worker,** that of its line. -/
theorem filter_lineRecords (number : Nat) (s : String) (outcome : Except Failure Answer) :
    (lineRecords number s outcome).filter Log.Record.isFromWorker =
      [(ResultLine.ofOutcome number s outcome).workerRecord] := by
  cases outcome with
  | ok answer =>
    exact List.filter_cons_of_pos (isFromWorker_workerRecord (.ofOutcome number s (.ok answer)))
  | error failure =>
    show List.filter _ (failureRecord s failure ::
      [(ResultLine.ofOutcome number s (.error failure)).workerRecord]) = _
    rw [List.filter_cons_of_neg (by rw [isFromWorker_failureRecord]; decide),
      List.filter_cons_of_pos (isFromWorker_workerRecord _), List.filter_nil]

variable (m : Machine) (p : Precision) (allowed : Option Nat) (statements : List String)
  (destination : String)

/-- The record of the worker is what is kept of each task. -/
theorem filter_tasks :
    (tasks p statements).map (List.filter Log.Record.isFromWorker) =
      ((lines p statements).map ResultLine.workerRecord).map fun r => [r] := by
  unfold tasks lines
  rw [List.map_map, List.map_map, List.map_map]
  exact List.map_congr_left fun (n, s, outcome) _ => filter_lineRecords n s outcome

/-- **The workers take turns with the records of the lines.** -/
theorem interleaved_filter_told :
    Interleaved (m.workerCount allowed statements.length)
      (((lines p statements).map ResultLine.workerRecord).map fun r => [r])
      ((told m p allowed statements).filter Log.Record.isFromWorker) := by
  rw [← filter_tasks]
  exact (interleaved_told m p allowed statements).filter _

/-! ### The mark of an error -/

/-- Whether a line of the results file has the mark of an error. -/
def isMarked (line : List Char) : Bool := decide (" -> ERROR: ".toList <:+: line)

variable {p}

/-- The lines with the mark are those of rejected statements. -/
theorem isMarked_render {line : ResultLine} (h : line ∈ lines p statements) :
    isMarked line.render.toList = line.isError := by
  rw [lines_eq_mapIdx] at h
  obtain ⟨i, hi, rfl⟩ := List.mem_mapIdx.1 h
  have hmark := isInfix_resultLine_iff p statements[i]
  unfold errorMark at hmark
  unfold isMarked lineOf
  rw [render_ofOutcome, Bool.eq_iff_iff, decide_eq_true_iff, hmark]
  cases (calculate p (some statements[i])).outcome with
  | ok answer => simp [ResultLine.ofOutcome, ResultLine.isError]
  | error failure => simp [ResultLine.ofOutcome, ResultLine.isError]

/-- **The mark settles the level** of what the worker tells about a line. -/
theorem level_workerRecord {line : ResultLine} (h : line ∈ lines p statements) :
    line.workerRecord.level = if isMarked line.render.toList then .error else .info := by
  rw [isMarked_render statements h]
  unfold ResultLine.workerRecord ResultLine.isError
  cases line.error <;> rfl

/-- **The counts at the end** are those of the lines without the mark and with it. -/
theorem summary_run :
    let file := (lines p statements).map fun line => line.render.toList
    (run m p allowed statements destination).summary =
      ⟨.info, "🏁 " ++ toString (file.countP fun line => !isMarked line) ++
        " statements evaluated, " ++ toString (file.countP isMarked) ++ " rejected"⟩ := by
  intro file
  have hmarked : file.countP isMarked =
      ((lines p statements).filter ResultLine.isError).length := by
    rw [List.countP_map, ← List.countP_eq_length_filter]
    exact List.countP_congr fun line hline => by
      rw [Function.comp_apply, isMarked_render statements hline]
  have hlength : file.length = (lines p statements).length := List.length_map _
  have hall : file.length = file.countP isMarked + file.countP fun line => !isMarked line := by
    simpa using List.length_eq_countP_add_countP isMarked (l := file)
  have hplain : (file.countP fun line => !isMarked line) =
      (lines p statements).length - ((lines p statements).filter ResultLine.isError).length := by
    omega
  rw [hplain, hmarked]
  rfl

/-! ### The records that are kept -/

/-- What a worker tells is never below `INFO`. -/
theorem severity_workerRecord (line : ResultLine) :
    Log.Level.info.severity ≤ line.workerRecord.level.severity := by
  unfold ResultLine.workerRecord
  cases line.error with
  | none => exact Nat.le_refl _
  | some error =>
    have hle : Log.Level.info.severity ≤ Log.Level.error.severity := by decide
    exact hle

/-- **The records that are kept** have those at the two ends and the counts, if the threshold is not
    above `INFO`. -/
theorem kept_records_run {severity : Nat}
    (h : Log.threshold severity ≤ Log.Level.info.severity) :
    let report := run m p allowed statements destination
    Log.kept severity (report.records ++ [report.summary]) =
      startRecord (m.workerCount allowed statements.length) statements.length ::
        Log.kept severity (told m p allowed statements) ++
        [writtenRecord destination, report.summary] := by
  intro report
  have hstart : Log.threshold severity ≤
      (startRecord (m.workerCount allowed statements.length) statements.length).level.severity := h
  have hwritten : Log.threshold severity ≤ (writtenRecord destination).level.severity := h
  have hsummary : Log.threshold severity ≤ report.summary.level.severity := h
  show Log.kept severity ((startRecord _ _ :: told m p allowed statements ++
    [writtenRecord destination]) ++ [report.summary]) = _
  rw [Log.kept_append, Log.kept_append, Log.kept_cons_of_le hstart, Log.kept_cons_of_le hwritten,
    Log.kept_cons_of_le hsummary, List.append_assoc]
  rfl

/-- Of the records that are kept, those of the workers are all that they tell, if the threshold is
    not above `INFO`. -/
theorem filter_kept_records {severity : Nat}
    (h : Log.threshold severity ≤ Log.Level.info.severity) :
    let report := run m p allowed statements destination
    (Log.kept severity (report.records ++ [report.summary])).filter Log.Record.isFromWorker =
      (told m p allowed statements).filter Log.Record.isFromWorker := by
  intro report
  rw [kept_records_run m allowed statements destination h, List.filter_append,
    List.filter_cons_of_neg (by simp [isFromWorker_startRecord]),
    List.filter_cons_of_neg (by simp [isFromWorker_writtenRecord]),
    List.filter_cons_of_neg (by simp [isFromWorker_summary]), List.filter_nil, List.append_nil,
    Log.kept, List.filter_comm, List.filter_eq_self]
  intro r hr
  -- Any record of a worker is that of a line.
  have hline := (interleaved_filter_told m p allowed statements).perm_singles.subset hr
  obtain ⟨line, -, rfl⟩ := List.mem_map.1 hline
  exact decide_eq_true (h.trans (severity_workerRecord line))

/-- Records are in step with lines and with the results file, as far as the workers are: they tell
    one record a line and no other; the next of them is about a line with fewer lines before it than
    have been told of and there are workers, so that one worker keeps the order of the lines; it is
    at `ERROR` if the line of the file has the mark of an error, and at `INFO` if not; and the last
    record counts the lines of the file without the mark and with it. -/
structure InStep (workers : Nat) (records : List Log.Record) (lines : List ResultLine)
    (file : List (List Char)) : Prop where
  rendered : file = lines.map fun line => line.render.toList
  each : (records.filter Log.Record.isFromWorker).Perm (lines.map ResultLine.workerRecord)
  ahead : ∀ (k : Nat) (r : Log.Record), (records.filter Log.Record.isFromWorker)[k]? = some r →
    ∃ i < k + workers, (lines.map ResultLine.workerRecord)[i]? = some r
  alone : workers = 1 →
    records.filter Log.Record.isFromWorker = lines.map ResultLine.workerRecord
  levels : (lines.map fun line => line.workerRecord.level) =
    file.map fun line => if isMarked line then .error else .info
  counts : records.getLast? = some ⟨.info, "🏁 " ++
    toString (file.countP fun line => !isMarked line) ++ " statements evaluated, " ++
    toString (file.countP isMarked) ++ " rejected"⟩

/-- **The records of a batch are in step** with its lines and with the renderings of these, if the
    threshold is not above `INFO`. -/
theorem inStep_run {severity : Nat} (h : Log.threshold severity ≤ Log.Level.info.severity) :
    let report := run m p allowed statements destination
    InStep (m.workerCount allowed statements.length)
      (Log.kept severity (report.records ++ [report.summary])) (lines p statements)
      ((lines p statements).map fun line => line.render.toList) := by
  intro report
  have hturns := interleaved_filter_told m p allowed statements
  rw [← filter_kept_records m allowed statements destination h] at hturns
  refine ⟨rfl, hturns.perm_singles, fun k r => hturns.exists_single, ?_, ?_, ?_⟩
  · intro hone
    rw [hone] at hturns
    exact hturns.eq_singles
  · rw [List.map_map]
    exact List.map_congr_left fun line hline => level_workerRecord statements hline
  · rw [kept_records_run m allowed statements destination h, List.getLast?_append]
    exact congrArg some (summary_run m allowed statements destination)

end Batch

end Reckoner

import Reckoner.Command.Logged
import Reckoner.Proofs.Batch.Lines
import Reckoner.Proofs.Batch.Logged
import Reckoner.Proofs.Command.Frame
import Reckoner.Proofs.Files.Layout

namespace Reckoner.Command

open Text

/-!
# What the command tells

The command does the same whatever level its logger is set to; the level only decides which of its
records are kept.  Those that are kept up to `INFO` agree with the results file, one record of a
worker for each line.  But the workers take turns as the machine lets them, so with two of them the
second line may be told of before the first.

* `runAt_eq`: a command with a logger is the command, with the records that are kept.
* `records_runAt`: the records at a level are some of those at `DEBUG`.
* `records_of_run`: the records of a command that writes its results.
* `exists_turns_iff`: the records that there can be, whatever the turns.
* `inStep_runAt`: the records agree with the results file.
* `perm_records_of_run`: on another machine they are the same but for their order.
* `logs_of_run`: the records at each level, and how they agree with the results file.
* `logs_out_of_order`: two lines, of which the second is told of first.
-/

/-! ### Levels -/

/-- **The command with a logger** does what the command does and keeps the records that are at or
    above the threshold. -/
theorem runAt_eq (m : Batch.Machine) (severity : Nat) (store : Store) (words : List String) :
    runAt m severity store words =
      ⟨(run m store words).store, (run m store words).records.map (Log.kept severity)⟩ := by
  unfold runAt run results
  cases settings store.read words with
  | error e => rfl
  | ok st =>
    simp only [Settings.results]
    cases st.resultsPath? with
    | none => rfl
    | some path =>
      cases Statements.read Statements.standardEncoding store.read st.input with
      | error e => rfl
      | ok statements =>
        simp only [Batch.runLogged_eq, Batch.Report.text]
        generalize store.write path _ = written
        cases written with
        | error e => rfl
        | ok written =>
          -- The counts are the last that the logger is told.
          let report := Batch.run m st.precision st.workers statements path.text
          have hkept : (((Log.Logger.start severity).tellAll report.records).tell
              report.summary).records = Log.kept severity (report.records ++ [report.summary]) := by
            show (((Log.Logger.start severity).tellAll report.records).tellAll
              [report.summary]).records = _
            rw [← Log.Logger.tellAll_append, Log.Logger.tellAll_eq]
            rfl
          exact congrArg (fun records => Outcome.mk written (.ok records)) hkept

/-- The records of a command with a logger are those of the command that are kept. -/
theorem exists_records_of_runAt {m : Batch.Machine} {severity : Nat} {store : Store}
    {words : List String} {records : List Log.Record}
    (h : (runAt m severity store words).records = .ok records) :
    ∃ all, (run m store words).records = .ok all ∧ Log.kept severity all = records := by
  rw [runAt_eq] at h
  cases hrun : (run m store words).records with
  | error e => simp [hrun, Except.map] at h
  | ok all =>
    simp only [hrun, Except.map, Except.ok.injEq] at h
    exact ⟨all, rfl, h⟩

/-- The threshold that a level sets is that level. -/
theorem threshold_severityOf_name (level : Log.Level) :
    Log.threshold (Log.severityOf level.name) = level.severity := by
  rw [Log.severityOf_name]
  cases level <;> rfl

/-- **The records at a level** are those of the `DEBUG` run at that level or above. -/
theorem records_runAt (m : Batch.Machine) (level : Log.Level) (store : Store)
    (words : List String) :
    (runAt m (Log.severityOf level.name) store words).records =
      (runAt m (Log.severityOf Log.Level.debug.name) store words).records.map
        (List.filter fun r => level.severity ≤ r.level.severity) := by
  rw [runAt_eq, runAt_eq]
  cases (run m store words).records with
  | error e => rfl
  | ok records =>
    have hall (r : Log.Record) : Log.Level.debug.severity ≤ r.level.severity := by
      cases r.level <;> decide
    have hdebug : Log.kept (Log.severityOf Log.Level.debug.name) records = records := by
      unfold Log.kept
      rw [threshold_severityOf_name, List.filter_eq_self]
      exact fun r _ => decide_eq_true (hall r)
    show Except.ok (Log.kept _ records) = .ok (List.filter _ (Log.kept _ records))
    rw [hdebug, Log.kept, threshold_severityOf_name]

/-! ### The results file -/

section Written

variable (m : Batch.Machine) {store written : Store} {words : List String} {st : Settings}
  {path : PathName} {statements : List String}
  (hsettings : settings store.read words = .ok st) (hpath : st.resultsPath? = some path)
  (hread : Statements.read Statements.standardEncoding store.read st.input = .ok statements)
  (hwrite : store.write path (Encoding.encodeUtf8 (Batch.resultsText st.precision statements)) =
    .ok written)

include hsettings hpath hread hwrite

/-- The records of a command that writes its results are those of its batch, with the counts behind
    them. -/
theorem records_of_run :
    let report := Batch.run m st.precision st.workers statements path.text
    (run m store words).records = .ok (report.records ++ [report.summary]) := by
  unfold run results
  rw [hsettings]
  simp only [Settings.results, hpath, hread, Batch.text_run, hwrite]
  rfl

variable {level : Log.Level} (hlevel : level.severity ≤ Log.Level.info.severity)

include hlevel

/-- Up to `INFO`, those at the two ends are kept, and of those between them the ones at the level or
    above. -/
theorem records_runAt_of_write :
    (runAt m (Log.severityOf level.name) store words).records =
      .ok (Batch.startRecord (m.workerCount st.workers statements.length) statements.length ::
        (Batch.told m st.precision st.workers statements).filter
          (fun r => level.severity ≤ r.level.severity) ++
        [Batch.writtenRecord path.text,
          (Batch.run m st.precision st.workers statements path.text).summary]) := by
  have hinfo : Log.threshold (Log.severityOf level.name) ≤ Log.Level.info.severity := by
    rwa [threshold_severityOf_name]
  have hkept := Batch.kept_records_run m (p := st.precision) st.workers statements path.text hinfo
  rw [runAt_eq, records_of_run m hsettings hpath hread hwrite]
  refine congrArg Except.ok (hkept.trans ?_)
  rw [Log.kept, threshold_severityOf_name]

/-- **The records that there can be** up to `INFO`, whatever the turns: between those at the two ends
    anything that the workers can tell, as far as it is kept. -/
theorem exists_turns_iff (log : List Log.Record) :
    (∃ turns, (runAt ⟨m.processors, turns⟩ (Log.severityOf level.name) store words).records =
      .ok log) ↔
      ∃ told, Batch.Interleaved (m.workerCount st.workers statements.length)
          (Batch.tasks st.precision statements) told ∧
        log = Batch.startRecord (m.workerCount st.workers statements.length) statements.length ::
          told.filter (fun r => level.severity ≤ r.level.severity) ++
          [Batch.writtenRecord path.text,
            (Batch.run m st.precision st.workers statements path.text).summary] := by
  -- Only what the workers tell depends on the turns.
  have hturns (turns : List Nat) :=
    records_runAt_of_write ⟨m.processors, turns⟩ hsettings hpath hread hwrite hlevel
  constructor
  · rintro ⟨turns, hlog⟩
    exact ⟨_, Batch.interleaved_told ⟨m.processors, turns⟩ st.precision st.workers statements,
      Except.ok.inj (hlog.symm.trans (hturns turns))⟩
  · rintro ⟨told, htold, rfl⟩
    obtain ⟨turns, rfl⟩ :=
      (Batch.interleaved_iff (m.workerCount_pos st.workers statements.length)).1 htold
    exact ⟨turns, hturns turns⟩

/-- **About each statement** what is kept up to `INFO` keeps its order. -/
theorem sublist_records_runAt {records : List Log.Record}
    (hrecords : (runAt m (Log.severityOf level.name) store words).records = .ok records)
    {task : List Log.Record} (htask : task ∈ Batch.tasks st.precision statements) :
    (task.filter fun r => level.severity ≤ r.level.severity).Sublist records := by
  have htold := (Batch.interleaved_told m st.precision st.workers statements).sublist htask
  obtain rfl := Except.ok.inj (hrecords.symm.trans
    (records_runAt_of_write m hsettings hpath hread hwrite hlevel))
  exact ((htold.filter _).cons _).trans (List.sublist_append_left _ _)

/-- **They are in step** with the lines and with the lines of the results file. -/
theorem inStep_runAt {records : List Log.Record}
    (hrecords : (runAt m (Log.severityOf level.name) store words).records = .ok records) :
    Batch.InStep (m.workerCount st.workers statements.length) records
      (Batch.lines st.precision statements)
      (splitLines (Batch.resultsText st.precision statements).toList) := by
  have hinfo : Log.threshold (Log.severityOf level.name) ≤ Log.Level.info.severity := by
    rwa [threshold_severityOf_name]
  have hfile := Batch.splitLines_resultsText_eq_render st.precision fun s hs =>
    (Statements.stripped_of_read hread s hs).unbroken
  obtain ⟨all, hrun, rfl⟩ := exists_records_of_runAt hrecords
  rw [Except.ok.inj (hrun.symm.trans (records_of_run m hsettings hpath hread hwrite)), hfile]
  exact Batch.inStep_run m st.workers statements path.text hinfo

end Written

/-- **On another machine** with as many processors a command that succeeds has the same records, but
    for their order. -/
theorem perm_records_of_run {m m' : Batch.Machine} {store : Store} {words : List String}
    {records records' : List Log.Record} (hprocessors : m.processors = m'.processors)
    (hrun : (run m store words).records = .ok records)
    (hrun' : (run m' store words).records = .ok records') : records.Perm records' := by
  obtain ⟨st, hsettings⟩ := exists_settings_of_run hrun
  obtain ⟨path, statements, hpath, hread, hwrite⟩ := run_eq_ok hrun hsettings
  rw [records_of_run m hsettings hpath hread hwrite] at hrun
  rw [records_of_run m' hsettings hpath hread hwrite] at hrun'
  obtain rfl := Except.ok.inj hrun
  obtain rfl := Except.ok.inj hrun'
  have hcount : m.workerCount st.workers statements.length =
      m'.workerCount st.workers statements.length := by
    unfold Batch.Machine.workerCount
    rw [hprocessors]
  have htold : (Batch.told m st.precision st.workers statements).Perm
      (Batch.told m' st.precision st.workers statements) :=
    (Batch.interleaved_told m _ _ _).perm.trans (Batch.interleaved_told m' _ _ _).perm.symm
  unfold Batch.run
  rw [hcount]
  exact ((htold.cons _).append_right _).append_right _

/-- **Records agree with results.**  Neither the level of the logger nor the machine changes the
    files or the lines of the batch.  The records at a level are those of the `DEBUG` run with the
    same turns at that level or above, in the same order, and those with other turns are the same
    but for their order.  After a success at `DEBUG` or `INFO`, the records that there can be are
    those at the two ends with anything between them that the workers can tell as they take turns;
    the ones about a statement keep their order; and those that there are agree with the lines, of
    which there is one for each statement in turn, and with the results file. -/
theorem logs_of_run (store : Store) (words : List String) :
    let logged (m : Batch.Machine) (level : Log.Level) :=
      runAt m (Log.severityOf level.name) store words
    (∀ m m' level level', (logged m level).store = (logged m' level').store) ∧
    (∀ m (level : Log.Level), (logged m level).records =
      (logged m .debug).records.map (List.filter fun r => level.severity ≤ r.level.severity)) ∧
    (∀ m m' level records records', m.processors = m'.processors →
      (logged m level).records = .ok records → (logged m' level).records = .ok records' →
        records.Perm records') ∧
    ∀ m level records, level = .debug ∨ level = .info → (logged m level).records = .ok records →
      ∃ st path statements lines text summary,
        settings store.read words = .ok st ∧ st.resultsPath? = some path ∧
        Statements.read Statements.standardEncoding store.read st.input = .ok statements ∧
        lines = statements.mapIdx (fun i s => Batch.lineOf st.precision (i + 1) s) ∧
        (∀ m' logger, (Batch.runLogged m' st.precision st.workers statements path.text logger).1 =
          lines) ∧
        (logged m level).store.read path = .ok (.bytes (Encoding.encodeUtf8 text)) ∧
        let workers := m.workerCount st.workers statements.length
        (∀ log, (∃ turns, (logged ⟨m.processors, turns⟩ level).records = .ok log) ↔
          ∃ told, Batch.Interleaved workers (Batch.tasks st.precision statements) told ∧
            log = Batch.startRecord workers statements.length ::
              told.filter (fun r => level.severity ≤ r.level.severity) ++
              [Batch.writtenRecord path.text, summary]) ∧
        (∀ task ∈ Batch.tasks st.precision statements,
          (task.filter fun r => level.severity ≤ r.level.severity).Sublist records) ∧
        Batch.InStep workers records lines (splitLines text.toList) := by
  intro logged
  have hstore (m : Batch.Machine) (level : Log.Level) :
      (logged m level).store = (run m store words).store := by
    show (runAt m (Log.severityOf level.name) store words).store = _
    rw [runAt_eq]
  refine ⟨?_, fun m level => records_runAt m level store words, ?_, ?_⟩
  · intro m m' level level'
    rw [hstore, hstore]
    exact store_run_eq m m' store words
  · intro m m' level records records' hprocessors hrecords hrecords'
    obtain ⟨all, hrun, rfl⟩ := exists_records_of_runAt hrecords
    obtain ⟨all', hrun', rfl⟩ := exists_records_of_runAt hrecords'
    exact (perm_records_of_run hprocessors hrun hrun').filter _
  intro m level records hlevel hrecords
  obtain ⟨all, hrun, -⟩ := exists_records_of_runAt hrecords
  obtain ⟨st, hsettings⟩ := exists_settings_of_run hrun
  obtain ⟨path, statements, hpath, hread, hwrite⟩ := run_eq_ok hrun hsettings
  have hsevere : level.severity ≤ Log.Level.info.severity := by
    rcases hlevel with rfl | rfl <;> decide
  have hlines := Batch.lines_eq_mapIdx st.precision statements
  refine ⟨st, path, statements, _, Batch.resultsText st.precision statements,
    (Batch.run m st.precision st.workers statements path.text).summary, hsettings, hpath, hread,
    rfl, fun m' logger => ?_, ?_, ?_, ?_, ?_⟩
  · rw [Batch.runLogged_eq]
    exact hlines
  · rw [hstore]
    exact Store.read_of_write hwrite
  · exact exists_turns_iff m hsettings hpath hread hwrite hsevere
  · exact fun task => sublist_records_runAt m hsettings hpath hread hwrite hsevere hrecords
  · rw [← hlines]
    exact inStep_runAt m hsettings hpath hread hwrite hsevere hrecords

/-- The two lines at `INFO`: a result, a reason, and one of each at the end. -/
theorem logs_of_run_twoLines :
    let logged := runAt (.inOrder none) (Log.severityOf Log.Level.info.name) twoLines ["in.txt"]
    ∃ records, logged.records = .ok records ∧
      records.filter Log.Record.isFromWorker =
        [⟨.info, "👷✅ Line 1 evaluated: 1+1 = 2"⟩,
          ⟨.error, "👷❌ Line 2 failed: The statement contains an unmatched closing bracket\n" ++
            "Could not evaluate: ')'"⟩] ∧
      records.getLast? = some ⟨.info, "🏁 1 statements evaluated, 1 rejected"⟩ := by
  intro logged
  have hok : logged.records.isOk = true := by decide +kernel
  cases hrecords : logged.records with
  | error e => simp [hrecords, Except.isOk, Except.toBool] at hok
  | ok records =>
    obtain ⟨st, path, statements, lines, text, _, hst, _, hread, hlines, _, _, _, _, hstep⟩ :=
      (logs_of_run twoLines ["in.txt"]).2.2.2 (.inOrder none) .info records (.inr rfl) hrecords
    -- The settings and the statements are known, and so are the lines.
    obtain rfl : ⟨⟨"", ["in.txt"]⟩, none, 4, none⟩ = st := Except.ok.inj hst
    have htwo : Statements.read Statements.standardEncoding twoLines.read ⟨"", ["in.txt"]⟩ =
        .ok ["1+1", ")"] := by decide +kernel
    obtain rfl : ["1+1", ")"] = statements := Except.ok.inj (htwo.symm.trans hread)
    subst hlines
    refine ⟨records, rfl, (hstep.alone rfl).trans (by decide +kernel), ?_⟩
    rw [hstep.counts, hstep.rendered]
    decide +kernel

/-- The two lines with two workers: the second line is rejected while the first one is still being
    calculated, and is told of first. -/
theorem logs_out_of_order :
    let info := Log.severityOf Log.Level.info.name
    let logged := runAt ⟨some 4, [1, 1]⟩ info twoLines ["in.txt", "-w", "2"]
    logged.records = .ok
      [⟨.info, "🖥️ Evaluating 2 statements with 2 workers"⟩,
        ⟨.error, "👷❌ Line 2 failed: The statement contains an unmatched closing bracket\n" ++
          "Could not evaluate: ')'"⟩,
        ⟨.info, "👷✅ Line 1 evaluated: 1+1 = 2"⟩,
        ⟨.info, "✉️ Results written to in_txt_results.txt"⟩,
        ⟨.info, "🏁 1 statements evaluated, 1 rejected"⟩] ∧
      logged.records.map (List.filter Log.Record.isFromWorker) ≠
        .ok ([Batch.lineOf 4 1 "1+1", Batch.lineOf 4 2 ")"].map ResultLine.workerRecord) := by
  decide +kernel

end Reckoner.Command

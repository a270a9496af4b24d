import Reckoner.Command.Run
import Reckoner.Proofs.Batch.ResultLine
import Reckoner.Proofs.Files.Statements
import Reckoner.Proofs.Files.Store

namespace Reckoner.Command

/-!
# The results file

What the command leaves in the results file is settled by the statements and the precision: the line
of each statement in turn.  Lines stay lines, so the file can be read like a statement file.

* `store_run`: the store after the command, without a word about workers or the machine.
* `run_eq_ok`: what a successful command has done.
* `read_results_of_run`: the results file, and what is read back from it.
-/

/-- Where results come from: a path, and the statements of the input. -/
theorem results_eq_ok {m : Batch.Machine} {openFile : PathName → Except Store.Error Content}
    {st : Settings} {r : Results} (h : st.results m openFile = .ok r) :
    ∃ statements, st.resultsPath? = some r.path ∧
      Statements.read Statements.standardEncoding openFile st.input = .ok statements ∧
      r.report.text = Batch.resultsText st.precision statements := by
  unfold Settings.results at h
  cases hpath : st.resultsPath? with
  | none => simp [hpath] at h
  | some path =>
    cases hread : Statements.read Statements.standardEncoding openFile st.input with
    | error e => simp [hpath, hread] at h
    | ok statements =>
      simp only [hpath, hread, Except.ok.injEq] at h
      subst h
      exact ⟨statements, rfl, rfl, Batch.text_run _ _ _ _ _⟩

/-- **The store after the command.**  If its settings can be followed up to the results, they are
    written; neither the machine nor the number of workers that are allowed makes a difference. -/
theorem store_run {m : Batch.Machine} {store : Store} {words : List String} {st : Settings}
    {path : PathName} {statements : List String} (hsettings : settings store.read words = .ok st)
    (hpath : st.resultsPath? = some path)
    (hread : Statements.read Statements.standardEncoding store.read st.input = .ok statements) :
    (run m store words).store =
      match store.write path (Encoding.encodeUtf8 (Batch.resultsText st.precision statements)) with
      | .error _ => store
      | .ok written => written := by
  unfold run results
  rw [hsettings]
  simp only [Settings.results, hpath, hread, Batch.text_run]
  cases store.write path (Encoding.encodeUtf8 (Batch.resultsText st.precision statements)) with
  | error e => rfl
  | ok written => rfl

/-- The store after the command is the same on every machine. -/
theorem store_run_eq (m m' : Batch.Machine) (store : Store) (words : List String) :
    (run m store words).store = (run m' store words).store := by
  unfold run results
  cases settings store.read words with
  | error e => rfl
  | ok st =>
    simp only [Settings.results]
    cases st.resultsPath? with
    | none => rfl
    | some path =>
      cases Statements.read Statements.standardEncoding store.read st.input with
      | error e => rfl
      | ok statements =>
        simp only [Batch.text_run]
        cases store.write path
            (Encoding.encodeUtf8 (Batch.resultsText st.precision statements)) with
        | error e => rfl
        | ok written => rfl

/-- **A successful command** has read statements and written their results. -/
theorem run_eq_ok {m : Batch.Machine} {store : Store} {words : List String}
    {records : List Log.Record} {st : Settings} (hrun : (run m store words).records = .ok records)
    (hsettings : settings store.read words = .ok st) :
    ∃ path statements, st.resultsPath? = some path ∧
      Statements.read Statements.standardEncoding store.read st.input = .ok statements ∧
      store.write path (Encoding.encodeUtf8 (Batch.resultsText st.precision statements)) =
        .ok (run m store words).store := by
  unfold run results at hrun ⊢
  rw [hsettings] at hrun ⊢
  cases hresults : st.results m store.read with
  | error e => simp [hresults] at hrun
  | ok r =>
    obtain ⟨statements, hpath, hread, htext⟩ := results_eq_ok hresults
    simp only [hresults, htext] at hrun ⊢
    refine ⟨r.path, statements, hpath, hread, ?_⟩
    cases hwrite : store.write r.path
        (Encoding.encodeUtf8 (Batch.resultsText st.precision statements)) with
    | error e => simp [hwrite] at hrun
    | ok written => rfl

/-- **The results file of a text file.**  After every successful command it holds the line of each
    statement of the input in their order, in UTF-8; what is read back from it as from a statement
    file are these lines; and other words that differ in the number of workers only leave the same
    store, on any machine. -/
theorem read_results_of_run {m : Batch.Machine} {store : Store} {words : List String}
    {records : List Log.Record} {st : Settings} {bytes : List UInt8}
    (hrun : (run m store words).records = .ok records)
    (hsettings : settings store.read words = .ok st) (hsuffix : st.input.suffix = ".txt")
    (hinput : store.read st.input = .ok (.bytes bytes)) :
    ∃ text path, Encoding.decode .utf8 bytes = .ok text ∧ st.resultsPath? = some path ∧
      let statements := Statements.ofText text
      let file := Batch.resultsText st.precision statements
      (run m store words).store.read path = .ok (.bytes (Encoding.encodeUtf8 file)) ∧
      Statements.decodeNamed Statements.standardEncoding (Encoding.encodeUtf8 file) = .ok file ∧
      Statements.ofText file = statements.map (Batch.resultLine st.precision) ∧
      ∀ m' others workers, settings store.read others = .ok { st with workers := workers } →
        (run m' store others).store = (run m store words).store := by
  obtain ⟨path, statements, hpath, hread, hwrite⟩ := run_eq_ok hrun hsettings
  obtain ⟨text, hdecode, rfl⟩ := Statements.read_eq_ok hsuffix hinput hread
  refine ⟨text, path, hdecode, hpath, Store.read_of_write hwrite, ?_, ?_, ?_⟩
  · rw [Statements.decodeNamed_standard, Encoding.decode_encodeUtf8]
  · -- Each line is about a statement that was stripped when it was read.
    apply Statements.ofText_join
    intro line hline
    obtain ⟨statement, hstatement, rfl⟩ := List.mem_map.1 hline
    exact Batch.stripped_resultLine st.precision (Statements.stripped_of_mem_ofText hstatement)
  · intro m' others workers hothers
    rw [store_run hsettings hpath hread]
    exact @store_run m' store others { st with workers := workers } path _ hothers hpath hread

/-- A working directory with a statement file of two lines, the second of which is malformed. -/
def twoLines : Store :=
  (Store.within ["work"]).add ["in.txt"] (.file (.bytes (Encoding.encodeUtf8 "1+1\n)\n")))

/-- The two lines with two workers, the second of which is first: the results file, and what is read back from it. -/
theorem read_results_of_run_twoLines :
    let file := "1+1 = 2\n) -> ERROR: The statement contains an unmatched closing bracket\n"
    let after := run ⟨none, [1, 1]⟩ twoLines ["in.txt", "-w", "2"]
    after.records.isOk = true ∧
      after.store.read ⟨"", ["in_txt_results.txt"]⟩ = .ok (.bytes (Encoding.encodeUtf8 file)) ∧
      Statements.ofText file =
        ["1+1 = 2", ") -> ERROR: The statement contains an unmatched closing bracket"] ∧
      (run (.inOrder (some 4)) twoLines ["in.txt"]).store = after.store := by
  intro file after
  have hok : after.records.isOk = true := by decide +kernel
  obtain ⟨records, hrun⟩ : ∃ records, after.records = .ok records := by
    cases h : after.records with
    | error e => simp [h, Except.isOk, Except.toBool] at hok
    | ok records => exact ⟨records, rfl⟩
  obtain ⟨text, path, hdecode, hpath, hresults, _, hback, hworkers⟩ :=
    @read_results_of_run ⟨none, [1, 1]⟩ twoLines ["in.txt", "-w", "2"] records
      ⟨⟨"", ["in.txt"]⟩, none, 4, some 2⟩ (Encoding.encodeUtf8 "1+1\n)\n") hrun rfl
      (by decide +kernel) rfl
  -- The text and the path are known, and so is the file.
  rw [Encoding.decode_encodeUtf8] at hdecode
  obtain rfl : "1+1\n)\n" = text := Except.ok.inj hdecode
  obtain rfl : (⟨"", ["in_txt_results.txt"]⟩ : PathName) = path := Option.some.inj hpath
  have hstatements : Statements.ofText "1+1\n)\n" = ["1+1", ")"] := by decide +kernel
  have hfile : Batch.resultsText 4 ["1+1", ")"] = file := by decide +kernel
  have hlines : ["1+1", ")"].map (Batch.resultLine 4) =
      ["1+1 = 2", ") -> ERROR: The statement contains an unmatched closing bracket"] := by
    decide +kernel
  simp only [hstatements, hfile] at hresults hback
  exact ⟨hok, hresults, hback.trans hlines, hworkers (.inOrder (some 4)) ["in.txt"] none rfl⟩

end Reckoner.Command

import Reckoner.Proofs.Command.Results
import Reckoner.Proofs.Text.PathName

namespace Reckoner.Command

/-!
# What the command leaves alone

The command writes once, at its end.  Before that it may stop with an error, and then nothing has
been written; after it one file holds the results, and all others are as they were.

* `exists_settings_of_run`: a successful command had settings.
* `isOk_run_iff`: once statements are read, only the place of the results can be in the way.
* `read_input_of_write`: without a path of their own the results do not touch the input.
* `frame_of_run`: what can have changed after the command.
-/

variable {m : Batch.Machine} {store : Store} {words : List String}

/-- A command that stops leaves all files as they were. -/
theorem store_of_run_eq_error {e : Error} (h : (run m store words).records = .error e) :
    (run m store words).store = store := by
  unfold run at h ⊢
  cases hresults : results m store.read words with
  | error e => rfl
  | ok r =>
    simp only [hresults] at h ⊢
    cases hwrite : store.write r.path (Encoding.encodeUtf8 r.report.text) with
    | error e => rfl
    | ok written => simp [hwrite] at h

/-- A successful command had settings. -/
theorem exists_settings_of_run {records : List Log.Record}
    (h : (run m store words).records = .ok records) : ∃ st, settings store.read words = .ok st := by
  unfold run results at h
  cases hsettings : settings store.read words with
  | error e => simp [hsettings] at h
  | ok st => exact ⟨st, rfl⟩

/-- **Statements do not stop the command,** whatever they are: once they are read, it succeeds if
    and only if the results path leads to a place that is no directory. -/
theorem isOk_run_iff {st : Settings} {path : PathName} {statements : List String}
    (hsettings : settings store.read words = .ok st) (hpath : st.resultsPath? = some path)
    (hread : Statements.read Statements.standardEncoding store.read st.input = .ok statements) :
    (run m store words).records.isOk = true ↔
      ∃ target, store.resolve path = .ok target ∧ store.node? target ≠ some .directory := by
  rw [← store.write_isOk_iff]
  unfold run results
  rw [hsettings]
  simp only [Settings.results, hpath, hread, Batch.text_run]
  cases store.write path (Encoding.encodeUtf8 (Batch.resultsText st.precision statements)) with
  | error e => rfl
  | ok written => rfl

/-- Results go where they were asked to go, or beside the input. -/
theorem Settings.resultsPath?_cases {st : Settings} {path : PathName}
    (h : st.resultsPath? = some path) :
    st.output = some path ∨ st.output = none ∧ st.input.resultsPath? = some path := by
  unfold Settings.resultsPath? at h
  cases houtput : st.output with
  | none =>
    rw [houtput] at h
    exact .inr ⟨rfl, h⟩
  | some output =>
    rw [houtput] at h
    exact .inl h

/-- **The derived path** lies in the directory of the input, and what is written there leaves the
    input as it was. -/
theorem read_input_of_write {written : Store} {input path : PathName} {content : Content}
    {bytes : List UInt8} (hpath : input.resultsPath? = some path)
    (hread : store.read input = .ok content) (hwrite : store.write path bytes = .ok written) :
    path.root = input.root ∧ path.parts.dropLast = input.parts.dropLast ∧ path ≠ input ∧
      written.read input = store.read input := by
  obtain ⟨directory, name, hparts, rfl, hlength⟩ := PathName.resultsPath?_eq_some hpath
  have hinput : input = ⟨input.root, directory ++ [input.name]⟩ := by rw [← hparts]
  have hne : name ≠ input.name := by
    intro heq
    rw [heq] at hlength
    omega
  have hback : name ≠ ".." := by
    rintro rfl
    have htwo : (".." : String).length = 2 := by decide
    omega
  refine ⟨rfl, ?_, ?_, ?_⟩
  · rw [hparts, List.dropLast_concat, List.dropLast_concat]
  · intro heq
    have hname := congrArg PathName.name heq
    simp only [PathName.name, List.getLast?_concat, Option.getD_some] at hname
    exact hne hname
  · rw [hread]
    apply Store.read_of_write_of_ne hwrite hread
    intro location hlocation
    rw [hinput]
    exact Store.resolve_ne_of_name_ne hback hne hlocation

/-- **What can have changed after the command.**  After an error no file has.  After success only
    the file has to which the results path leads, and it holds the results and nothing else; if no
    path was asked for, it is another file in the directory of the input, and the input is as it was.
    Whether the command succeeds depends on the arguments, on the statement file being readable and
    on the place of the results, but not on what the statements are. -/
theorem frame_of_run (m : Batch.Machine) (store : Store) (words : List String) :
    (∀ e, (run m store words).records = .error e → (run m store words).store = store) ∧
    (∀ records, (run m store words).records = .ok records →
      ∃ st path statements target, settings store.read words = .ok st ∧
        Statements.read Statements.standardEncoding store.read st.input = .ok statements ∧
        (st.output = some path ∨ st.output = none ∧ st.input.resultsPath? = some path) ∧
        store.resolve path = .ok target ∧
        Store.OnlyWrites store (run m store words).store target
          (Encoding.encodeUtf8 (Batch.resultsText st.precision statements)) ∧
        (st.output = none → path.root = st.input.root ∧
          path.parts.dropLast = st.input.parts.dropLast ∧ path ≠ st.input ∧
          (run m store words).store.read st.input = store.read st.input)) ∧
    ∀ st path statements, settings store.read words = .ok st → st.resultsPath? = some path →
      Statements.read Statements.standardEncoding store.read st.input = .ok statements →
      ((run m store words).records.isOk = true ↔
        ∃ target, store.resolve path = .ok target ∧ store.node? target ≠ some .directory) := by
  refine ⟨fun e => store_of_run_eq_error, ?_, fun st path statements => isOk_run_iff⟩
  intro records hrun
  obtain ⟨st, hsettings⟩ := exists_settings_of_run hrun
  obtain ⟨path, statements, hpath, hread, hwrite⟩ := run_eq_ok hrun hsettings
  obtain ⟨target, htarget, honly⟩ := Store.onlyWrites_of_write hwrite
  obtain ⟨content, hcontent⟩ := Statements.exists_content_of_read hread
  have hcases := Settings.resultsPath?_cases hpath
  refine ⟨st, path, statements, target, hsettings, hread, hcases, htarget, honly, ?_⟩
  intro houtput
  rcases hcases with hsome | ⟨_, hderived⟩
  · rw [houtput] at hsome
    cases hsome
  · exact read_input_of_write hderived hcontent hwrite

/-- The two lines, of which one is malformed: the command succeeds and leaves them as they are. -/
theorem frame_of_run_twoLines :
    let after := run (.inOrder none) twoLines ["in.txt"]
    after.records.isOk = true ∧
      after.store.read ⟨"", ["in.txt"]⟩ = twoLines.read ⟨"", ["in.txt"]⟩ := by
  intro after
  have hsettings : settings twoLines.read ["in.txt"] = .ok ⟨⟨"", ["in.txt"]⟩, none, 4, none⟩ := rfl
  have hread : Statements.read Statements.standardEncoding twoLines.read ⟨"", ["in.txt"]⟩ =
      .ok ["1+1", ")"] := by decide +kernel
  obtain ⟨_, hsuccess, hcondition⟩ := frame_of_run (.inOrder none) twoLines ["in.txt"]
  have hok : after.records.isOk = true :=
    (hcondition _ ⟨"", ["in_txt_results.txt"]⟩ _ hsettings rfl hread).2
      ⟨["work", "in_txt_results.txt"], by decide +kernel, by decide +kernel⟩
  refine ⟨hok, ?_⟩
  cases hrun : after.records with
  | error e => simp [hrun, Except.isOk, Except.toBool] at hok
  | ok records =>
    obtain ⟨st, path, statements, target, hst, _, _, _, _, hinput⟩ := hsuccess records hrun
    obtain rfl : ⟨⟨"", ["in.txt"]⟩, none, 4, none⟩ = st := Except.ok.inj (hsettings.symm.trans hst)
    exact (hinput rfl).2.2.2

end Reckoner.Command

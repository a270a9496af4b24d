import Reckoner.Batch.Logged
import Reckoner.Command.Run

namespace Reckoner.Command

/-!
# The command with a logger

The same command as `Command.run`, with a logger of some severity: its records are those that have
been written down.

Main definitions:
* `runAt`: the command on a store, at a severity
-/

/-- The command with the words of its command line, and with a logger of the given severity. -/
def runAt (m : Batch.Machine) (severity : Nat) (store : Store) (words : List String) : Outcome :=
  match settings store.read words with
  | .error e => ⟨store, .error e⟩
  | .ok st =>
    match st.resultsPath? with
    | none => ⟨store, .error (.noName st.input)⟩
    | some path =>
      match Statements.read Statements.standardEncoding store.read st.input with
      | .error e => ⟨store, .error (.statements e)⟩
      | .ok statements =>
        let (lines, logger) :=
          Batch.runLogged m st.precision st.workers statements path.text (.start severity)
        let report : Batch.Report := ⟨lines, logger.records⟩
        match store.write path (Encoding.encodeUtf8 report.text) with
        | .error e => ⟨store, .error (.results e)⟩
        | .ok written => ⟨written, .ok (logger.tell report.summary).records⟩

end Reckoner.Command

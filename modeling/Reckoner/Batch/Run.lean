import Reckoner.Batch.ResultLine
import Reckoner.Batch.Workers
import Reckoner.Log

namespace Reckoner.Batch

/-!
# Batches of statements

Many statements are calculated side by side, and their lines are put together in the order of the
statements.  How many workers share the work, and how they take turns, shows in the records and
nowhere else.

Main definitions:
* `startRecord`, `writtenRecord`: the records at the two ends of a batch
* `lineRecords`: the records about one statement
* `Report`: the lines and the records of a batch
* `lines`, `told`: its lines, and what its workers tell
* `run`: the report on a batch
* `Report.text`: the text of the results file
-/

/-! ### Records -/

/-- The record at the beginning of a batch. -/
def startRecord (workers : Nat) (statements : Nat) : Log.Record :=
  ⟨.info, "🖥️ Evaluating " ++ toString statements ++ " statements with " ++ toString workers ++
    " workers"⟩

/-- The record at the end of a batch. -/
def writtenRecord (destination : String) : Log.Record :=
  ⟨.info, "✉️ Results written to " ++ destination⟩

/-- The record in which the calculator tells why a statement has no result. -/
def failureRecord (statement : String) (failure : Failure) : Log.Record where
  level := .debug
  message :=
    match failure with
    | .notFinite value =>
      "🧮❌ Statement " ++ Text.quoted statement ++ " has no finite result: " ++ value.text
    | failure => "🧮❌ Rejected statement " ++ Text.quoted statement ++ ": " ++ failure.message

/-- The records about a statement: what the calculator tells, then what the worker tells. -/
def lineRecords (number : Nat) (statement : String) : Except Failure Answer → List Log.Record
  | .ok answer =>
    [⟨.info, "👷✅ Line " ++ toString number ++ " evaluated: " ++ statement ++ " = " ++
      answer.formatted⟩]
  | .error failure =>
    [failureRecord statement failure,
      ⟨.error, "👷❌ Line " ++ toString number ++ " failed: " ++ failure.message ++
        "\nCould not evaluate: " ++ Text.quoted statement⟩]

/-! ### The run -/

/-- What came of a batch. -/
structure Report where
  lines : List ResultLine
  records : List Log.Record
  deriving DecidableEq, Repr

/-- The statements with their numbers and outcomes. -/
def outcomes (p : Precision) (statements : List String) :
    List (Nat × String × Except Failure Answer) :=
  statements.mapIdx fun i statement => (i + 1, statement, (calculate p (some statement)).outcome)

/-- The lines of a batch, in the order of its statements. -/
def lines (p : Precision) (statements : List String) : List ResultLine :=
  (outcomes p statements).map fun (number, statement, outcome) => .ofOutcome number statement outcome

/-- What each statement has its worker tell. -/
def tasks (p : Precision) (statements : List String) : List (List Log.Record) :=
  (outcomes p statements).map fun (number, statement, outcome) =>
    lineRecords number statement outcome

/-- What the workers tell, in the order in which the machine lets them. -/
def told (m : Machine) (p : Precision) (allowed : Option Nat) (statements : List String) :
    List Log.Record :=
  interleave (m.workerCount allowed statements.length) m.turns (tasks p statements)

/-- The report on a batch whose results go to the destination. -/
def run (m : Machine) (p : Precision) (allowed : Option Nat) (statements : List String)
    (destination : String) : Report where
  lines := lines p statements
  records :=
    startRecord (m.workerCount allowed statements.length) statements.length ::
      told m p allowed statements ++ [writtenRecord destination]

/-- The text of the results file: every line, ended by a line feed. -/
def Report.text (report : Report) : String :=
  String.join (report.lines.map fun line => line.render ++ "\n")

/-- The record that sums up a batch. -/
def Report.summary (report : Report) : Log.Record :=
  let failed := (report.lines.filter ResultLine.isError).length
  ⟨.info, "🏁 " ++ toString (report.lines.length - failed) ++ " statements evaluated, " ++
    toString failed ++ " rejected"⟩

end Reckoner.Batch

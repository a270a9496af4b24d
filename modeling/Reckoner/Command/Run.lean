import Reckoner.Batch.Run
import Reckoner.Command.Settings
import Reckoner.Files.Statements

namespace Reckoner.Command

/-!
# The command

The statements of a file are calculated and their results written to another file.  The results
file is written last and at once, so an error leaves all files as they were.

Main definitions:
* `Error`: what can stop the command
* `settings`: the settings that words ask for
* `results`: what is to be written
* `Outcome`: the files and the records after the command
* `run`: the command on a store of files
-/

/-- What can stop the command. -/
inductive Error where
  | usage (e : UsageError)
  /-- The name of the statement file is none at all. -/
  | input (e : Store.Error)
  | settings (errors : List SettingError)
  | statements (e : Statements.Error)
  /-- The input has no name to derive that of the results from. -/
  | noName (path : PathName)
  | results (e : Store.Error)
  deriving DecidableEq, Repr

/-- The text of an error. -/
def Error.message : Error → String
  | .usage e => e.message
  | .input e => e.message
  | .settings errors => SettingError.listMessage errors
  | .statements e => e.message
  | .noName path => path.emptyNameMessage
  | .results e => e.message

/-- The exit code of an error in the arguments; help is none. -/
def Error.exitCode : Error → Nat
  | .usage .help => 0
  | .usage _ => 2
  | .settings _ => 2
  | _ => 1

/-! ### Settings and results -/

/-- The settings that words ask for, when files are opened by the given function.  That there is no
    statement file is one error among others, but a name too long for any file stops the command. -/
def settings (openFile : PathName → Except Store.Error Content) (words : List String) :
    Except Error Settings :=
  match Arguments.parse (Precision.standard.val : Int) words with
  | .error e => .error (.usage e)
  | .ok arguments =>
    match openFile (PathName.parse arguments.file), Settings.check openFile arguments with
    | .error .nameTooLong, _ => .error (.input .nameTooLong)
    | _, .error errors => .error (.settings errors)
    | _, .ok settings => .ok settings

/-- What is to be written, and where to. -/
structure Results where
  path : PathName
  report : Batch.Report
  deriving DecidableEq, Repr

/-- The records about a command that has written its results. -/
def Results.records (r : Results) : List Log.Record := r.report.records ++ [r.report.summary]

/-- Where the results go: to the path that was asked for, or beside the statement file. -/
def Settings.resultsPath? (s : Settings) : Option PathName := s.output <|> s.input.resultsPath?

/-- The results for settings, on a machine. -/
def Settings.results (m : Batch.Machine) (openFile : PathName → Except Store.Error Content)
    (s : Settings) : Except Error Results :=
  match s.resultsPath? with
  | none => .error (.noName s.input)
  | some path =>
    match Statements.read Statements.standardEncoding openFile s.input with
    | .error e => .error (.statements e)
    | .ok statements => .ok ⟨path, Batch.run m s.precision s.workers statements path.text⟩

/-- The results that words ask for, when files are opened by the given function. -/
def results (m : Batch.Machine) (openFile : PathName → Except Store.Error Content)
    (words : List String) : Except Error Results :=
  match settings openFile words with
  | .error e => .error e
  | .ok settings => settings.results m openFile

/-! ### The command on a store -/

/-- The files after the command, with its records or with the error that stopped it. -/
structure Outcome where
  store : Store
  records : Except Error (List Log.Record)

/-- The command with the words of its command line. -/
def run (m : Batch.Machine) (store : Store) (words : List String) : Outcome :=
  match results m store.read words with
  | .error e => ⟨store, .error e⟩
  | .ok results =>
    match store.write results.path (Encoding.encodeUtf8 results.report.text) with
    | .error e => ⟨store, .error (.results e)⟩
    | .ok written => ⟨written, .ok results.records⟩

end Reckoner.Command

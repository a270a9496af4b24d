import Reckoner.Command.Run

namespace Reckoner.Program

/-!
# The program

The command of `Reckoner.Command` on the files of the machine.  How archives are packed is no
concern of this library, so the bytes of an archive are taken for those of none.

Main definitions:
* `openFile`, `openNamed`: the file at a path, and the one that words name
* `execute`: the command with its effects
-/

/-- What stands at a path.  A directory fails on reading, when its name is no longer known; any
    failure that has nothing to do with the kind of the file is passed on. -/
def openFile (path : PathName) : IO (Except Store.Error Content) := do
  match ← (IO.FS.readBinFile path.text).toBaseIO with
  | .ok bytes => return .ok (.bytes bytes.toList)
  | .error (.noFileOrDirectory _ _ _) => return .error .notFound
  | .error (.inappropriateType (some _) _ _) => return .error .notDirectory
  | .error (.inappropriateType none _ _) => return .error .isDirectory
  | .error failure => throw failure

/-- The statement file that words name; words that are no arguments name none. -/
def openNamed (words : List String) : IO (Except Store.Error Content) :=
  match Command.Arguments.parse (Precision.standard.val : Int) words with
  | .ok arguments => openFile (PathName.parse arguments.file)
  | .error _ => return .error .notFound

/-- Shows the records of the usual severity, one on a line. -/
def printRecords (records : List Log.Record) : IO Unit :=
  for record in Log.kept Log.Level.info.severity records do
    IO.eprintln (record.level.name ++ " | " ++ record.message)

/-- Calculates the statements of the named file one after the other, writes the results and tells
    what was done.  The results file is opened when the results are complete, and no other one is
    written to. -/
def execute (words : List String) : IO UInt32 := do
  let content ← openNamed words
  match Command.results (.inOrder none) (fun _ => content) words with
  | .error e =>
    IO.eprintln ("reckoner: error: " ++ e.message)
    return e.exitCode.toUInt32
  | .ok results =>
    IO.FS.writeBinFile results.path.text ⟨(Encoding.encodeUtf8 results.report.text).toArray⟩
    printRecords results.records
    return 0

end Reckoner.Program

/-- The program with the words of its command line. -/
def main (words : List String) : IO UInt32 := Reckoner.Program.execute words

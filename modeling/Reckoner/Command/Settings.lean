import Reckoner.Calculator.Precision
import Reckoner.Command.Arguments
import Reckoner.Files.Store

namespace Reckoner.Command

/-!
# Checked settings

The arguments of the command are checked against the files and against the ranges of the numbers.
All that is wrong is reported at once.

Main definitions:
* `SettingError`: what is wrong with one setting, with the value that was given
* `SettingError.listMessage`: the text for all that is wrong
* `Settings`: the checked settings
* `Settings.check`: the settings of arguments
-/

/-- A value as it was given; an option without one has an empty list of them. -/
inductive Given where
  | text (s : String)
  | integer (n : Int)
  | nothing
  deriving DecidableEq, Repr

namespace Given

/-- The value as a message shows it. -/
def shown : Given → String
  | .text s => Text.quoted s
  | .integer n => toString n
  | .nothing => "[]"

/-- The name of its kind. -/
def kindName : Given → String
  | .text _ => "str"
  | .integer _ => "int"
  | .nothing => "list"

end Given

/-- What is wrong with one setting. -/
structure SettingError where
  field : String
  defect : Field.Defect
  given : Given
  deriving DecidableEq, Repr

namespace SettingError

/-- The longest start of a text that fits into a number of bytes. -/
def takeBytes : (budget : Nat) → List Char → List Char
  | _, [] => []
  | budget, c :: rest =>
    if c.utf8Size ≤ budget then c :: takeBytes (budget - c.utf8Size) rest else []

/-- A text of more than 50 bytes is shown by its first 25 and its last 24 bytes, as far as these
    are whole characters. -/
def shortened (s : String) : String :=
  if s.utf8ByteSize ≤ 50 then s
  else
    let start := takeBytes 25 s.toList
    let ending := (takeBytes 24 s.toList.reverse).reverse
    String.ofList start ++ "..." ++ String.ofList ending

/-- The two lines for one setting. -/
def message (e : SettingError) : String :=
  e.field ++ "\n  " ++ e.defect.message ++ " [type=" ++ e.defect.code ++ ", input_value=" ++
    shortened e.given.shown ++ ", input_type=" ++ e.given.kindName ++ "]"

/-- The text for all that is wrong. -/
def listMessage (errors : List SettingError) : String :=
  let count := errors.length
  toString count ++ (if count = 1 then " validation error" else " validation errors") ++
    " for CliArgs\n" ++ "\n".intercalate (errors.map message)

end SettingError

/-- The settings of the command: the statement file, where the results go if that is said, the
    precision, and how many workers are allowed if that is said. -/
structure Settings where
  input : PathName
  output : Option PathName
  precision : Precision
  workers : Option Nat
  deriving DecidableEq, Repr

namespace Settings

/-- The path of a file that can be opened. -/
def checkFile (openFile : PathName → Except Store.Error Content) (file : String) :
    Except SettingError PathName :=
  let path := PathName.parse file
  match openFile path with
  | .ok _ => .ok path
  | .error _ => .error ⟨"file_path", .notFile, .text file⟩

/-- The path of the results, if there is one. -/
def checkOutput : Option (Setting String) → Except SettingError (Option PathName)
  | none => .ok none
  | some .absent => .error ⟨"output", .notPath, .nothing⟩
  | some (.given file) => .ok (some (PathName.parse file))

/-- The precision. -/
def checkPrecision : Setting Int → Except SettingError Precision
  | .absent => .error ⟨Precision.field, .notInteger, .nothing⟩
  | .given n =>
    match Precision.ofInt n with
    | .ok p => .ok p
    | .error defect => .error ⟨Precision.field, defect, .integer n⟩

/-- The number of workers, at least one. -/
def checkWorkers : Option (Setting Int) → Except SettingError (Option Nat)
  | none => .ok none
  | some .absent => .error ⟨"workers", .notInteger, .nothing⟩
  | some (.given n) =>
    match Field.atLeast 1 n with
    | .ok n => .ok (some n.toNat)
    | .error defect => .error ⟨"workers", defect, .integer n⟩

/-- The error of a setting that is wrong. -/
def error? {α : Type} : Except SettingError α → Option SettingError
  | .ok _ => none
  | .error e => some e

/-- The settings of arguments, or all that is wrong with them. -/
def check (openFile : PathName → Except Store.Error Content) (a : Arguments) :
    Except (List SettingError) Settings :=
  match checkFile openFile a.file, checkOutput a.output, checkPrecision a.precision,
    checkWorkers a.workers with
  | .ok input, .ok output, .ok precision, .ok workers => .ok ⟨input, output, precision, workers⟩
  | input, output, precision, workers =>
    .error ((error? input).toList ++ (error? output).toList ++ (error? precision).toList ++
      (error? workers).toList)

end Settings

end Reckoner.Command

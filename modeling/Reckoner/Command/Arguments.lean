import Reckoner.Decimal.Reading
import Reckoner.Text.Blank
import Reckoner.Text.Digit
import Reckoner.Text.Fields
import Reckoner.Text.Quoted

namespace Reckoner.Command

/-!
# Command-line arguments

The command takes the path of a statement file and four options, each with a short and a long name.
A long name may be cut short, a value may stand in the same word as its option, and after a lone
double dash nothing is an option any more.  The words are first told apart, all of them, and then
taken in order.

Main definitions:
* `Flag`: the options
* `Word`, `Word.classify`: what a word is
* `UsageError`: what can be wrong with the words
* `Setting`: the value of an option
* `Arguments`: what the words ask for
* `Arguments.parse`: the arguments of a list of words
-/

/-! ### Options -/

/-- An option.  All but the first one take a value. -/
inductive Flag where
  | help
  | output
  | precision
  | workers
  deriving DecidableEq, Repr

namespace Flag

/-- The options in the order in which they are shown. -/
def all : List Flag := [.help, .output, .precision, .workers]

/-- The long name of an option. -/
def long : Flag → String
  | .help => "--help"
  | .output => "--output"
  | .precision => "--precision"
  | .workers => "--workers"

/-- The letter of an option. -/
def letter : Flag → Char
  | .help => 'h'
  | .output => 'o'
  | .precision => 'p'
  | .workers => 'w'

/-- The short name of an option. -/
def short (f : Flag) : String := String.ofList ['-', f.letter]

/-- Both names, as messages show them. -/
def names (f : Flag) : String := f.short ++ "/" ++ f.long

/-- The option with a letter. -/
def ofLetter? (c : Char) : Option Flag := all.find? (·.letter = c)

/-- The options whose long names start with a text. -/
def startingWith (start : List Char) : List Flag :=
  all.filter fun f => start.isPrefixOf f.long.toList

end Flag

/-! ### Errors -/

/-- Why the words are no arguments. -/
inductive UsageError where
  /-- Help was asked for. -/
  | help
  | ambiguous (word : String) (candidates : List Flag)
  | valueExpected (f : Flag)
  | valueIgnored (f : Flag) (value : String)
  | notInteger (f : Flag) (value : String)
  | fileMissing
  | unrecognized (words : List String)
  deriving DecidableEq, Repr

namespace UsageError

/-- The text of an error. -/
def message : UsageError → String
  | .help => ""
  | .ambiguous word candidates =>
    "ambiguous option: " ++ word ++ " could match " ++ ", ".intercalate (candidates.map Flag.long)
  | .valueExpected f => "argument " ++ f.names ++ ": expected one argument"
  | .valueIgnored f value =>
    "argument " ++ f.names ++ ": ignored explicit argument " ++ Text.quoted value
  | .notInteger f value => "argument " ++ f.names ++ ": invalid int value: " ++ Text.quoted value
  | .fileMissing => "the following arguments are required: file_path"
  | .unrecognized words => "unrecognized arguments: " ++ " ".intercalate words

end UsageError

/-! ### Words -/

/-- What a word of the command line is. -/
inductive Word where
  /-- A path or the value of an option. -/
  | plain (text : String)
  /-- The first lone double dash. -/
  | separator
  /-- An option under its short or its long name, perhaps with a value in the same word. -/
  | flag (f : Flag) (isShort : Bool) (value : Option (List Char))
  /-- Something that looks like an option and is none. -/
  | unknown (text : String)
  deriving DecidableEq, Repr

namespace Word

/-- The text up to the first equals sign, and what follows the sign. -/
def splitValue (cs : List Char) : List Char × Option (List Char) :=
  match cs.dropWhile (· ≠ '=') with
  | [] => (cs, none)
  | _ :: value => (cs.takeWhile (· ≠ '='), some value)

/-- A negative number: a minus and digits, or a minus, perhaps digits, a point and digits.  A line
    feed may follow. -/
def isNegativeNumber (cs : List Char) : Bool :=
  let isDigit := fun c => (Text.digitValue? c).isSome
  match if cs.getLast? = some '\n' then cs.dropLast else cs with
  | '-' :: rest =>
    match rest.dropWhile isDigit with
    | [] => rest ≠ []
    | '.' :: fraction => fraction ≠ [] && fraction.all isDigit
    | _ => false
  | _ => false

/-- A word that starts with a dash and is no option: a negative number and anything with a space
    count as plain. -/
def ofOther (cs : List Char) : Word :=
  if isNegativeNumber cs || cs.contains ' ' then .plain (String.ofList cs)
  else .unknown (String.ofList cs)

/-- A word that starts with two dashes. -/
def ofLong (cs : List Char) : Except UsageError Word :=
  let (name, value) := splitValue cs
  match Flag.startingWith name with
  | [] => .ok (ofOther cs)
  | [f] => .ok (.flag f false value)
  | candidates => .error (.ambiguous (String.ofList cs) candidates)

/-- What a word is that stands before any lone double dash. -/
def ofText (word : String) : Except UsageError Word :=
  match word.toList with
  | '-' :: '-' :: rest => ofLong ('-' :: '-' :: rest)
  | '-' :: c :: rest =>
    match Flag.ofLetter? c with
    | none => .ok (ofOther ('-' :: c :: rest))
    | some f =>
      let value := match rest with
        | [] => none
        | '=' :: value => some value
        | value => some value
      .ok (.flag f true value)
  | _ => .ok (.plain word)

/-- What the words are, one after the other. -/
def classify : List String → Except UsageError (List Word)
  | [] => .ok []
  | "--" :: rest => .ok (.separator :: rest.map .plain)
  | word :: rest =>
    match ofText word with
    | .error e => .error e
    | .ok word =>
      match classify rest with
      | .error e => .error e
      | .ok words => .ok (word :: words)

end Word

/-! ### Arguments -/

/-- The value of an option.  A double dash in the same word is taken away from the option, which is
    then without one. -/
inductive Setting (α : Type) where
  | absent
  | given (value : α)
  deriving DecidableEq, Repr

/-- What the words ask for. -/
structure Arguments where
  file : String
  output : Option (Setting String)
  precision : Setting Int
  workers : Option (Setting Int)
  deriving DecidableEq, Repr

/-- What has been taken from the words so far; `extras` are the words that nothing takes. -/
structure Taken where
  file : Option String
  output : Option (Setting String)
  precision : Setting Int
  workers : Option (Setting Int)
  extras : List String
  deriving DecidableEq, Repr

namespace Taken

/-- Before the first word. -/
def start (precision : Int) : Taken := ⟨none, none, .given precision, none, []⟩

/-- A text as the value of an option. -/
def textSetting (value : String) : Setting String :=
  if value = "--" then .absent else .given value

/-- An integer as the value of an option: a numeral in any script with blanks around it. -/
def integerSetting (f : Flag) (value : String) : Except UsageError (Setting Int) :=
  if value = "--" then .ok .absent
  else match Decimal.integer? .anyScript (Text.trimBy Text.isSpace value.toList) with
    | some n => .ok (.given n)
    | none => .error (.notInteger f value)

/-- An option with its value.  A value given later replaces an earlier one. -/
def setValue (t : Taken) (f : Flag) (value : String) : Except UsageError Taken :=
  match f with
  | .help => .error .help
  | .output => .ok { t with output := some (textSetting value) }
  | .precision =>
    match integerSetting f value with
    | .ok setting => .ok { t with precision := setting }
    | .error e => .error e
  | .workers =>
    match integerSetting f value with
    | .ok setting => .ok { t with workers := some setting }
    | .error e => .error e

/-- Letters in the same word behind the letter of the help option are options too.  Help is given if
    all is well with them. -/
def helpWith (next : Option Word) : List Char → UsageError
  | [] => .help
  | c :: rest =>
    match Flag.ofLetter? c with
    | none => .valueIgnored .help (String.ofList (c :: rest))
    | some .help => helpWith next rest
    | some f =>
      match rest, next with
      | _ :: _, _ => .help
      | [], some (.plain _) => .help
      | [], _ => .valueExpected f

/-- The help option: a value in the same word is ignored, which is an error, unless it consists of
    further letters. -/
def help (isShort : Bool) (value : Option (List Char)) (next : Option Word) : UsageError :=
  match value with
  | none => .help
  | some value =>
    if isShort && !value.isEmpty then helpWith next value
    else .valueIgnored .help (String.ofList value)

/-- The words in order.  The first plain word is the path of the file; a separator next to it is
    taken with it. -/
def takeAll (t : Taken) : List Word → Except UsageError Taken
  | [] => .ok t
  | .plain text :: rest =>
    if t.file.isNone then
      match rest with
      | .separator :: rest => takeAll { t with file := some text } rest
      | rest => takeAll { t with file := some text } rest
    else takeAll { t with extras := t.extras ++ [text] } rest
  | .separator :: .plain text :: rest =>
    if t.file.isNone then takeAll { t with file := some text } rest
    else takeAll { t with extras := t.extras ++ ["--", text] } rest
  | .separator :: rest => takeAll { t with extras := t.extras ++ ["--"] } rest
  | .unknown text :: rest => takeAll { t with extras := t.extras ++ [text] } rest
  | .flag .help isShort value :: rest => .error (help isShort value rest.head?)
  | .flag f _ (some value) :: rest =>
    match setValue t f (String.ofList value) with
    | .error e => .error e
    | .ok t => takeAll t rest
  | .flag f _ none :: .plain value :: rest =>
    match setValue t f value with
    | .error e => .error e
    | .ok t => takeAll t rest
  | .flag f _ none :: _ => .error (.valueExpected f)

/-- The arguments, if the file is named and no word is left over. -/
def finish (t : Taken) : Except UsageError Arguments :=
  match t.file, t.extras with
  | none, _ => .error .fileMissing
  | some file, [] => .ok ⟨file, t.output, t.precision, t.workers⟩
  | some _, extras => .error (.unrecognized extras)

end Taken

/-- The arguments that words ask for; the precision is the given one if they do not say. -/
def Arguments.parse (precision : Int) (words : List String) : Except UsageError Arguments :=
  match Word.classify words with
  | .error e => .error e
  | .ok words =>
    match (Taken.start precision).takeAll words with
    | .error e => .error e
    | .ok taken => taken.finish

end Reckoner.Command

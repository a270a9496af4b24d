import Reckoner.Text.Blank

namespace Reckoner.Log

/-!
# Log records

What is done is told in records of different levels.  They are all written down; which of them are
kept is decided afterwards by a threshold.

Main definitions:
* `Level`: the levels, with their severities and names
* `severityOf`: the severity that a level name stands for
* `Record`: a message with its level
* `kept`: the records at or above a threshold
-/

/-- The level of a record. -/
inductive Level where
  | debug
  | info
  | warning
  | error
  | critical
  deriving DecidableEq, Repr

namespace Level

/-- How severe a level is. -/
def severity : Level → Nat
  | .debug => 10
  | .info => 20
  | .warning => 30
  | .error => 40
  | .critical => 50

/-- The name of a level in a record. -/
def name : Level → String
  | .debug => "DEBUG"
  | .info => "INFO"
  | .warning => "WARNING"
  | .error => "ERROR"
  | .critical => "CRITICAL"

end Level

/-! ### Level names -/

/-- The names that stand for a severity.  Zero stands for no threshold of one's own. -/
def severities : List (String × Nat) :=
  [("CRITICAL", 50), ("FATAL", 50), ("ERROR", 40), ("WARNING", 30), ("WARN", 30), ("INFO", 20),
    ("DEBUG", 10), ("NOTSET", 0)]

/-- The capital form of a character, if it consists of ASCII letters; any other character stays, and
    occurs in no level name. -/
def capitals (c : Char) : List Char :=
  match c with
  | 'ı' => ['I']
  | 'ſ' => ['S']
  | 'ß' => ['S', 'S']
  | 'ﬀ' => ['F', 'F']
  | 'ﬁ' => ['F', 'I']
  | 'ﬂ' => ['F', 'L']
  | 'ﬃ' => ['F', 'F', 'I']
  | 'ﬄ' => ['F', 'F', 'L']
  | 'ﬅ' => ['S', 'T']
  | 'ﬆ' => ['S', 'T']
  | c => [c.toUpper]

/-- The severity of a level name in any case and with blanks around it; that of `INFO` for an unknown
    name. -/
def severityOf (name : String) : Nat :=
  let known := String.ofList ((Text.trim name.toList).flatMap capitals)
  (severities.lookup known).getD Level.info.severity

/-- The name of a level stands for its severity. -/
theorem severityOf_name (level : Level) : severityOf level.name = level.severity := by
  cases level <;> decide

/-- The threshold that a severity sets.  Without one of its own, that of warnings holds. -/
def threshold (severity : Nat) : Nat :=
  if severity = 0 then Level.warning.severity else severity

/-! ### Records -/

/-- A record of what was done. -/
structure Record where
  level : Level
  message : String
  deriving DecidableEq, Repr

/-- The records at or above the threshold, in order. -/
def kept (severity : Nat) (records : List Record) : List Record :=
  records.filter fun r => threshold severity ≤ r.level.severity

/-- What is kept of records one after the other. -/
theorem kept_append (severity : Nat) (before after : List Record) :
    kept severity (before ++ after) = kept severity before ++ kept severity after :=
  List.filter_append before after

/-- A record at or above the threshold is kept. -/
theorem kept_cons_of_le {severity : Nat} {r : Record} (h : threshold severity ≤ r.level.severity)
    (records : List Record) : kept severity (r :: records) = r :: kept severity records :=
  List.filter_cons_of_pos (decide_eq_true h)

end Reckoner.Log

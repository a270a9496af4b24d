import Reckoner.Log

namespace Reckoner.Log

/-!
# Loggers

A logger is told of what is done, record by record, and writes down at once what is severe enough.

Main definitions:
* `Logger`: the severity that is set, and the records that were written down
* `Logger.tell`, `Logger.tellAll`: one record more, and several

Main statement: `Logger.tellAll_eq` (what is written down are the records that are kept).
-/

/-- A logger: the severity that is set for it, and what it has written down. -/
structure Logger where
  severity : Nat
  records : List Record
  deriving DecidableEq, Repr

namespace Logger

/-- A logger that has been told nothing. -/
def start (severity : Nat) : Logger := ⟨severity, []⟩

/-- One record more, which is written down if it is at or above the threshold. -/
def tell (logger : Logger) (r : Record) : Logger :=
  if threshold logger.severity ≤ r.level.severity then
    ⟨logger.severity, logger.records ++ [r]⟩
  else logger

/-- Several records more, one after the other. -/
def tellAll (logger : Logger) (records : List Record) : Logger := records.foldl tell logger

/-- Records one after the other are told one after the other. -/
theorem tellAll_append (logger : Logger) (before after : List Record) :
    logger.tellAll (before ++ after) = (logger.tellAll before).tellAll after :=
  List.foldl_append

/-- What is written down are the records that are kept. -/
theorem tellAll_eq (logger : Logger) (records : List Record) :
    logger.tellAll records = ⟨logger.severity, logger.records ++ kept logger.severity records⟩ := by
  induction records generalizing logger with
  | nil => simp [tellAll, kept]
  | cons r records ih =>
    have hrest := ih (logger.tell r)
    unfold tellAll at hrest ⊢
    rw [List.foldl_cons, hrest, tell, kept, kept]
    by_cases hkept : threshold logger.severity ≤ r.level.severity
    · simp [hkept]
    · simp [hkept]

end Logger

end Reckoner.Log

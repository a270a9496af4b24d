import Reckoner.Batch.Run
import Reckoner.Log.Logger

namespace Reckoner.Batch

/-!
# Batches with a logger

The same batch as `Batch.run` with a logger at hand: it is told when the batch begins, then what the
workers tell as they take turns, and at last that the results are written.

Main definitions:
* `runLogged`: the lines of a batch, and the logger that has been told about it
-/

/-- The lines of a batch whose results go to the destination, and the logger afterwards. -/
def runLogged (m : Machine) (p : Precision) (allowed : Option Nat) (statements : List String)
    (destination : String) (logger : Log.Logger) : List ResultLine × Log.Logger :=
  let count := statements.length
  let logger := logger.tell (startRecord (m.workerCount allowed count) count)
  let logger := logger.tellAll (told m p allowed statements)
  (lines p statements, logger.tell (writtenRecord destination))

end Reckoner.Batch

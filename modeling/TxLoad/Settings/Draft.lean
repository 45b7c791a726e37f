import TxLoad.Binary64.Basic
import TxLoad.Run.Timetable
import TxLoad.Text.Blank

/-! # Settings as they are given

A draft leaves settings open. The command line with the environment makes one draft and a settings
file another; what the first leaves open is taken from the second. A text that is blank counts as
open, and so does an empty list.
-/

namespace TxLoad.Settings

structure Draft where
  file : Option String := none
  privateKey : Option String := none
  recipient : Option String := none
  endpoints : List String := []
  amount : Option Binary64 := none
  count : Option Word64 := none
  batchSize : Option Word64 := none
  pause : Option Binary64 := none
  slots : List Target := []
  beacon : Option String := none
  submitLimit : Option Word64 := none
  metricsPort : Option (BitVec 16) := none
  deriving DecidableEq, Repr, Inhabited

/-- The first text that is not blank. -/
def orText (first second : Option String) : Option String :=
  (Text.nonBlank first).or (Text.nonBlank second)

/-- The first list that is not empty. -/
def orList {α : Type} (first second : List α) : List α := if first.isEmpty then second else first

/-- The settings of the first draft, completed by those of the second. -/
def Draft.or (d e : Draft) : Draft where
  file := d.file.or e.file
  privateKey := orText d.privateKey e.privateKey
  recipient := orText d.recipient e.recipient
  endpoints := orList d.endpoints e.endpoints
  amount := d.amount.or e.amount
  count := d.count.or e.count
  batchSize := d.batchSize.or e.batchSize
  pause := d.pause.or e.pause
  slots := orList d.slots e.slots
  beacon := orText d.beacon e.beacon
  submitLimit := d.submitLimit.or e.submitLimit
  metricsPort := d.metricsPort.or e.metricsPort

end TxLoad.Settings

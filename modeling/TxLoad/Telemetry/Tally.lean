import TxLoad.Binary64.Basic
import TxLoad.Rejection

/-! # What is counted during a run

A tally keeps what was observed: how many transactions were acknowledged, the kind of each
rejection, the time that each batch took, how often the fallback gas limit was used, and the last
wait for a slot.
-/

namespace TxLoad

/-- The span in seconds: the whole seconds and the fraction are rounded each, and then their sum. -/
def Duration.inSeconds (d : Duration) : Binary64 :=
  (Binary64.ofInt d.secs).plus (.ofRatio false d.subsecNanos 1000000000)

structure Tally where
  sent : Nat := 0
  rejections : List Rejection.Kind := []
  latencies : List Binary64 := []
  fallbacks : Nat := 0
  slotWait : Option Binary64 := none
  deriving DecidableEq, Repr, Inhabited

namespace Tally

def addSent (t : Tally) : Tally := { t with sent := t.sent + 1 }

def addRejection (kind : Rejection.Kind) (t : Tally) : Tally :=
  { t with rejections := t.rejections ++ [kind] }

def addBatch (latency : Binary64) (t : Tally) : Tally :=
  { t with latencies := t.latencies ++ [latency] }

def addFallback (t : Tally) : Tally := { t with fallbacks := t.fallbacks + 1 }

def setSlotWait (wait : Binary64) (t : Tally) : Tally := { t with slotWait := some wait }

/-- How many transactions were rejected for this kind of reason. -/
def failed (t : Tally) (kind : Rejection.Kind) : Nat := t.rejections.count kind

def batches (t : Tally) : Nat := t.latencies.length

end Tally

end TxLoad

import TxLoad.Run.Plan
import TxLoad.Run.Submission

/-! # Carrying out a plan

A run sends the planned number of transfers in batches of at most the planned size, with a pause
between two batches. Rejected transfers are counted; a batch that cannot be prepared ends the run.
With targets, there is one such run at the start of each target's slot.
-/

namespace TxLoad

/-- The totals of a run. -/
structure Totals where
  batches : Nat := 0
  sent : Nat := 0
  failed : Nat := 0
  deriving DecidableEq, Repr, Inhabited

namespace Totals

def add (t u : Totals) : Totals := ⟨t.batches + u.batches, t.sent + u.sent, t.failed + u.failed⟩

def ofReport (r : BatchReport) : Totals := ⟨1, r.sent, r.failed⟩

end Totals

namespace Plan

variable {σ : Type}

/-- The pause between two batches, which is left out after the last. -/
def rest (p : Plan) (remaining : Nat) : Act σ Unit :=
  if remaining ≠ 0 && p.pause.nanos ≠ 0 then Act.sleep p.pause else pure ()

/-- Sends the remaining transfers. A batch that was prepared is not empty, so fewer remain after
it. -/
def sendRemaining (network : Network σ) (p : Plan) (chainId : Word64) (remaining : Nat)
    (totals : Totals) : Act σ Totals :=
  if remaining = 0 then pure totals
  else do
    let size := min remaining p.batchSize.toNat
    let terms : TransferTerms := ⟨p.recipient, p.amount, chainId⟩
    let batch ← Batch.prepare network p.account terms (BitVec.ofNat 64 size)
    let report ← batch.submit network p.submitLimit
    let remaining := remaining - max size 1
    p.rest remaining
    sendRemaining network p chainId remaining (totals.add (.ofReport report))
termination_by remaining
decreasing_by omega

/-- One run without regard to slots. -/
def send (network : Network σ) (p : Plan) (chainId : Word64) : Act σ Totals :=
  sendRemaining network p chainId p.count.toNat {}

/-- One run at each target of the timetable. -/
def sendAtSlots (network : Network σ) (clock : Clock) (p : Plan) (chainId : Word64)
    (timetable : Timetable) : Act σ Totals := do
  let totals ← (fun w =>
    let ((results, _), w) := timetable.run clock (fun _ => p.send network chainId) w
    (results, w) : Act σ (List Totals))
  Act.notice (.scheduleDone totals.length)
  return totals.foldl Totals.add {}

/-- The timetable of a plan with targets, for which the genesis time must be known. -/
def obtainTimetable (network : Network σ) (p : Plan) : Act σ (Option Timetable) :=
  match p.beacon, p.slots with
  | some url, target :: targets => do
    let genesis ← Act.ask (.genesis url) (network.genesisTime url)
    Act.notice (.genesisFetched genesis)
    return some (.new genesis (target :: targets))
  | _, _ => return none

/-- Carries out a plan. -/
def execute (network : Network σ) (clock : Clock) (p : Plan) : Act σ Totals := do
  Act.ofExcept (p.check.mapError .failure)
  let timetable ← p.obtainTimetable network
  let chainId ← Act.ask .chainId network.chainId
  Act.notice (.runPrepared chainId p.account.address p.recipient p.amount)
  let totals ← match timetable with
    | some timetable => p.sendAtSlots network clock chainId timetable
    | none => p.send network chainId
  Act.notice (.runDone totals.batches totals.sent totals.failed)
  return totals

end Plan

end TxLoad

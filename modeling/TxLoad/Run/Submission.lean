import TxLoad.Run.Batch

/-! # Submitting a batch

All payloads of a batch are handed to the endpoint at once, and each is waited for on its own, up
to a limit; a reply that comes right at the limit still counts. What becomes of one payload has no
bearing on the others. The report tells the outcome of each transfer, in the order of the batch.
-/

namespace TxLoad

structure SubmissionResult where
  nonce : Word64
  outcome : Except Rejection Hash

namespace SubmissionResult

def isSent (r : SubmissionResult) : Bool :=
  match r.outcome with
  | .ok _ => true
  | .error _ => false

end SubmissionResult

structure BatchReport where
  results : List SubmissionResult := []
  elapsed : Duration := .zero

namespace BatchReport

def sent (r : BatchReport) : Nat := r.results.countP SubmissionResult.isSent

def failed (r : BatchReport) : Nat := r.results.length - r.sent

end BatchReport

namespace Submission

/-- How long a payload is waited for. -/
def waited (limit : Duration) : Option (Reply Hash) → Duration
  | none => limit
  | some reply => limit.shorter reply.delay

/-- What a payload's reply amounts to within the limit. -/
def outcome (limit : Duration) : Option (Reply Hash) → Except Rejection Hash
  | none => .error (.ofTimeout limit)
  | some reply =>
    if limit.nanos < reply.delay.nanos then .error (.ofTimeout limit)
    else
      match reply.answer with
      | .value hash => .ok hash
      | .failure f => .error (.ofFailure f)
      | .fault f => .error (.ofFault f)

variable {σ : Type}

/-- Hands in all payloads, one after the other, at the present moment. -/
def handIn (network : Network σ) : List SignedTransfer → Act σ (List (Option (Reply Hash)))
  | [] => return []
  | transfer :: rest => do
    Act.logCalls [.submit transfer.payload]
    let reply ← Act.step (network.submit transfer.payload)
    let replies ← handIn network rest
    return reply :: replies

/-- Takes note of what became of one transfer. -/
def record (network : Network σ) (transfer : SignedTransfer) :
    Except Rejection Hash → Act σ Unit
  | .ok hash => do
    Act.step fun s => ((), network.acknowledge transfer.payload s)
    if hash ≠ transfer.hash then Act.notice (.unexpectedHash transfer.nonce transfer.hash hash)
    Act.notice (.sent transfer.nonce hash)
    Act.count Tally.addSent
  | .error rejection => do
    Act.notice (.rejected transfer.nonce rejection)
    Act.count (Tally.addRejection rejection.kind)

def longest (spans : List Duration) : Duration := spans.foldl Duration.longer .zero

end Submission

open Submission in
/-- Submits a batch and waits until each of its transfers is acknowledged, rejected or given up. -/
def Batch.submit {σ : Type} (network : Network σ) (limit : Duration) (batch : Batch) :
    Act σ BatchReport := do
  if batch.transfers.isEmpty then return {}
  Act.notice (.batchSubmitted batch.size batch.pricing)
  let replies ← handIn network batch.transfers
  let elapsed := longest (replies.map (waited limit))
  Act.sleep elapsed
  let outcomes := replies.map (outcome limit)
  (batch.transfers.zip outcomes).forM fun (transfer, outcome) => record network transfer outcome
  let results := (batch.transfers.zip outcomes).map fun (transfer, outcome) =>
    (⟨transfer.nonce, outcome⟩ : SubmissionResult)
  let report : BatchReport := ⟨results, elapsed⟩
  Act.count (Tally.addBatch elapsed.inSeconds)
  Act.notice (.batchDone report.sent report.failed)
  return report

end TxLoad

import TxLoad.Run.World

/-! # Why a mined transaction failed

The receipt tells whether a transaction failed. If it did, the transaction is made again as a call
on the state before its block, and the node's answer tells the reason. A receipt without a status
comes from a chain that did not record failures.
-/

namespace TxLoad

inductive Verdict
  | succeeded
  | reverted (reason : Option String)
  deriving DecidableEq, Repr

namespace Verdict

/-- The transaction as a call. -/
def replay (t : KnownTransaction) : CallObject where
  dynamicFee := false
  gasPrice := t.gasPrice
  request :=
    { sender := some t.sender
      recipient := t.recipient
      value := some t.value
      gasLimit := some t.gas
      data := some t.input }

variable {σ α : Type}

/-- What was found, which must be there. -/
def found (hash : Hash) : Option α → Act σ α
  | some a => pure a
  | none => Act.fail (.notFound hash.text)

/-- What the answer to the replay tells. A call that failed gives its message as the reason. -/
def ofReplay (hash : Hash) : Answer Bytes → Act σ Verdict
  | .value _ => do
    Act.notice (.replaySucceeded hash)
    return .reverted none
  | .failure (.call failure) => return .reverted (some failure.message)
  | .failure f => Act.fail f
  | .fault f => throw (.fault f)

def obtain (archive : Archive σ) (hash : Hash) : Act σ Verdict := do
  let transaction ← found hash (← Act.ask (.transaction hash) (archive.transaction hash))
  let receipt ← found hash (← Act.ask (.receipt hash) (archive.receipt hash))
  if receipt.status ≠ some 0 then return .succeeded
  let block ← found hash receipt.block
  let replayBlock := BitVec.ofNat 64 (block.toNat - 1)
  Act.notice (.replaying hash block replayBlock)
  let call := replay transaction
  Act.logCalls [.callAt call replayBlock]
  let reply ← Act.step (archive.callAt call replayBlock)
  Act.sleep reply.delay
  ofReplay hash reply.answer

/-- Fails if the transaction did. -/
def ensureSucceeded (archive : Archive σ) (hash : Hash) : Act σ Unit := do
  match ← obtain archive hash with
  | .succeeded => Act.notice (.notFailed hash)
  | .reverted reason => Act.fail (.reverted hash.text reason)

end Verdict

end TxLoad

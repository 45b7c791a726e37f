import TxLoad.Run.World

/-! # Batches

A batch is a number of signed transfers with consecutive nonces and one price. The price and the
pending count of the account are read anew for each batch, the price first; signing needs no
endpoint. An action that fails leaves no part of a batch behind.
-/

namespace TxLoad

/-- What all transfers of a run have in common. -/
structure TransferTerms where
  recipient : Address
  amount : Word256
  chainId : Word64
  deriving DecidableEq, Repr, Inhabited

namespace Pricing

/-- The transfer whose gas is estimated. -/
def probe (sender recipient : Address) (amount : Word256) : CallObject where
  dynamicFee := true
  request := { sender := some sender, recipient := some recipient, value := some amount }

variable {σ : Type}

/-- The gas limit that follows from the answer to the estimate; a failed estimate is no obstacle. -/
def gasLimitOf : Answer Word256 → Act σ Word256
  | .value estimate => Act.ofFault (bufferedGasLimit estimate)
  | .failure f => do
    Act.notice (.estimateFailed f)
    Act.count Tally.addFallback
    return fallbackGasLimit
  | .fault f => throw (.fault f)

/-- The base fee of a block; a block without one has no price. -/
def baseFeeOf : Option Word256 → Except Stop Word256
  | some fee => .ok fee
  | none => .error (.failure (.pricing .noBaseFee))

/-- Reads what a price follows from. -/
def obtain (network : Network σ) (sender recipient : Address) (amount : Word256) :
    Act σ Pricing := do
  let (estimate, baseFee, priorityFee) ← Act.askFees network (probe sender recipient amount)
  let gasLimit ← gasLimitOf estimate
  let baseFee ← Act.ofExcept (baseFee.toExcept >>= baseFeeOf)
  let priorityFee ← Act.ofExcept priorityFee.toExcept
  let maxFee ← Act.ofFault (offeredFee baseFee priorityFee)
  let pricing : Pricing := ⟨gasLimit, maxFee, priorityFee⟩
  Act.notice (.priced baseFee pricing)
  return pricing

end Pricing

/-- The nonces from `first` up to and without `stop`. -/
structure NonceRange where
  first : Word64
  stop : Word64
  deriving DecidableEq, Repr, Inhabited

namespace NonceRange

def size (r : NonceRange) : Nat := r.stop.toNat - r.first.toNat

def toList (r : NonceRange) : List Word64 :=
  (List.range r.size).map fun i => BitVec.ofNat 64 (r.first.toNat + i)

variable {σ : Type}

/-- Takes `size` nonces from the account's pending count on. A count below what was handed out last
tells that some of it has not been accepted; it is used all the same. -/
def reserve (network : Network σ) (account : Address) (size : Word64) : Act σ NonceRange := do
  if size = 0 then Act.fail (.internal .emptyRange)
  let pending ← Act.ask (.pendingCount account) (network.pendingCount account)
  let expected := (← get).handedOut
  if pending < expected then Act.notice (.pendingLags pending expected)
  let stop ← Act.ofFault (pending.plus size)
  modify fun w => { w with handedOut := stop }
  Act.notice (.noncesReserved pending stop)
  return ⟨pending, stop⟩

end NonceRange

structure Batch where
  pricing : Pricing
  transfers : List SignedTransfer
  deriving DecidableEq, Repr, Inhabited

namespace Batch

def size (b : Batch) : Nat := b.transfers.length

/-- The request for one transfer of a batch. -/
def request (sender : Address) (terms : TransferTerms) (pricing : Pricing) (nonce : Word64) :
    Request where
  sender := some sender
  recipient := some terms.recipient
  value := some terms.amount
  nonce := some (nonce.setWidth 256)
  gasLimit := some pricing.gasLimit
  maxFee := some pricing.maxFee
  priorityFee := some pricing.priorityFee
  chainId := some terms.chainId

/-- One signed transfer for each nonce. -/
def sign (account : Account) (terms : TransferTerms) (pricing : Pricing) (nonces : List Word64) :
    Except Stop (List SignedTransfer) :=
  let sender := account.address
  nonces.mapM fun nonce => account.sign (request sender terms pricing nonce)

variable {σ : Type}

/-- Prepares a batch of exactly `size` transfers. -/
def prepare (network : Network σ) (account : Account) (terms : TransferTerms) (size : Word64) :
    Act σ Batch := do
  let pricing ← Pricing.obtain network account.address terms.recipient terms.amount
  let nonces ← NonceRange.reserve network account.address size
  let transfers ← Act.ofExcept (sign account terms pricing nonces.toList)
  Act.notice (.batchBuilt transfers.length (transfers.head?.map SignedTransfer.nonce))
  return ⟨pricing, transfers⟩

end Batch

end TxLoad

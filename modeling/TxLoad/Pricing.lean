import TxLoad.Failure

/-! # What a batch pays for gas

All transactions of a batch share one price. The gas limit is the node's estimate and a fifth more,
rounded up; the fee that is offered at most is twice the base fee and the priority fee on top, so
that it holds while the base fee doubles.
-/

namespace TxLoad

structure Pricing where
  gasLimit : Word256
  maxFee : Word256
  priorityFee : Word256
  deriving DecidableEq, Repr, Inhabited

namespace Pricing

/-- The gas limit where the node has no estimate. -/
def fallbackGasLimit : Word256 := 40000

def bufferedGasLimit (estimate : Word256) : Except Fault Word256 := do
  let scaled ← estimate.times 120
  let raised ← scaled.plus 99
  return raised / 100

def offeredFee (baseFee priorityFee : Word256) : Except Fault Word256 := do
  let doubled ← baseFee.times 2
  doubled.plus priorityFee

end Pricing

end TxLoad

import TxLoad.Binary64.Basic
import TxLoad.Pricing
import TxLoad.Rejection

/-! # What a run writes to its log

A notice is an event of a run with the data that it shows. Every notice has a level, the part of
the program that it concerns, a message and fields; a log shows it if its level is enabled for that
part.
-/

namespace TxLoad

inductive Level
  | error
  | warn
  | info
  | debug
  | trace
  deriving DecidableEq, Repr, Inhabited

def Level.name : Level → String
  | .error => "ERROR"
  | .warn => "WARN"
  | .info => "INFO"
  | .debug => "DEBUG"
  | .trace => "TRACE"

/-- How much a level lets through: an error is let through by every level. -/
def Level.rank : Level → Nat
  | .error => 1
  | .warn => 2
  | .info => 3
  | .debug => 4
  | .trace => 5

inductive Detail
  | text (text : String)
  | number (n : Nat)
  | real (x : Binary64)
  | flag (value : Bool)
  deriving DecidableEq, Repr

inductive Notice
  | started
  | endpointAdded (url : String)
  | endpointUnusable (url error : String)
  | callFailed (method error : String)
  | endpointChanged (index : Nat)
  | genesisFetched (genesis : Word64)
  | runPrepared (chainId : Word64) (sender recipient : Address) (amount : Word256)
  | estimateFailed (failure : Failure)
  | priced (baseFee : Word256) (pricing : Pricing)
  | pendingLags (pending expected : Word64)
  | noncesReserved (first stop : Word64)
  | batchBuilt (size : Nat) (firstNonce : Option Word64)
  | batchSubmitted (size : Nat) (pricing : Pricing)
  | unexpectedHash (nonce : Word64) (expected returned : Hash)
  | sent (nonce : Word64) (hash : Hash)
  | rejected (nonce : Word64) (rejection : Rejection)
  | batchDone (sent failed : Nat)
  | slotAwaited (slot : Nat) (wait : Binary64)
  | slotReached (slot : Nat)
  | scheduleDone (runs : Nat)
  | runDone (batches sent failed : Nat)
  | someRejected (failed : Nat)
  | invalidConfiguration (failure : Failure)
  | runFailed (failure : Failure)
  | replaying (hash : Hash) (block replayBlock : Word64)
  | replaySucceeded (hash : Hash)
  | notFailed (hash : Hash)
  deriving DecidableEq, Repr

namespace Notice

def level : Notice → Level
  | endpointUnusable .. | callFailed .. | endpointChanged .. | estimateFailed .. | pendingLags ..
  | unexpectedHash .. | rejected .. | replaySucceeded .. => .warn
  | invalidConfiguration .. | runFailed .. => .error
  | started | runPrepared .. | batchDone .. | slotAwaited .. | runDone .. | someRejected ..
  | notFailed .. => .info
  | endpointAdded .. | genesisFetched .. | priced .. | noncesReserved .. | batchBuilt ..
  | batchSubmitted .. | sent .. | slotReached .. | scheduleDone .. | replaying .. => .debug

/-- The part of the program, as a log filter names it. -/
def target : Notice → String
  | started | someRejected .. | invalidConfiguration .. | runFailed .. => "tx_spammer"
  | endpointAdded .. | endpointUnusable .. | callFailed .. | endpointChanged .. =>
    "tx_spammer::chain::provider"
  | genesisFetched .. => "tx_spammer::chain::beacon"
  | runPrepared .. | scheduleDone .. | runDone .. => "tx_spammer::engine"
  | estimateFailed .. | priced .. => "tx_spammer::tx::gas"
  | pendingLags .. | noncesReserved .. => "tx_spammer::tx::nonce"
  | batchBuilt .. => "tx_spammer::tx::builder"
  | batchSubmitted .. | unexpectedHash .. | sent .. | rejected .. | batchDone .. =>
    "tx_spammer::tx::dispatcher"
  | slotAwaited .. | slotReached .. => "tx_spammer::schedule"
  | replaying .. | replaySucceeded .. | notFailed .. => "tx_spammer::revert"

def message : Notice → String
  | started => "Starting tx-spammer v0.1.0"
  | endpointAdded .. => "Added HTTP provider"
  | endpointUnusable .. => "Failed to create provider"
  | callFailed .. => "RPC call failed"
  | endpointChanged .. => "RPC failover"
  | genesisFetched .. => "Fetched beacon genesis"
  | runPrepared .. => "Spammer initialized"
  | estimateFailed .. => "Gas estimation failed, using fallback limit"
  | priced .. => "Fee quote"
  | pendingLags .. => "Pending nonce lags previous batch, collisions likely"
  | noncesReserved .. => "Allocated nonces"
  | batchBuilt .. => "Built batch"
  | batchSubmitted .. => "Dispatching batch"
  | unexpectedHash .. => "Endpoint returned an unexpected transaction hash"
  | sent .. => "Transaction sent"
  | rejected .. => "Transaction rejected"
  | batchDone .. => "Batch dispatched"
  | slotAwaited .. => "Waiting for slot"
  | slotReached .. => "Slot reached"
  | scheduleDone .. => "Schedule complete"
  | runDone .. => "Run complete"
  | someRejected .. => "Some transactions were rejected; see warnings above"
  | invalidConfiguration .. => "Invalid configuration"
  | runFailed .. => "Run failed"
  | replaying .. => "Replaying failed transaction"
  | replaySucceeded .. => "Replay succeeded, revert not reproducible"
  | notFailed .. => "Transaction did not fail"

def word (w : Word64) : Detail := .number w.toNat

/-- An amount is shown as text, because it may exceed what a number in a log holds. -/
def amount (w : Word256) : Detail := .text (toString w.toNat)

def fields : Notice → List (String × Detail)
  | started => []
  | endpointAdded url => [("url", .text url)]
  | endpointUnusable url error => [("url", .text url), ("error", .text error)]
  | callFailed method error => [("method", .text method), ("error", .text error)]
  | endpointChanged index => [("provider", .number index)]
  | genesisFetched genesis => [("genesis_time", word genesis)]
  | runPrepared chainId sender recipient wei =>
    [("chain_id", word chainId), ("sender", .text sender.text), ("recipient", .text recipient.text),
      ("amount_wei", amount wei)]
  | estimateFailed failure =>
    [("error", .text failure.message), ("fallback", amount Pricing.fallbackGasLimit)]
  | priced baseFee pricing =>
    [("gas_limit", amount pricing.gasLimit), ("base_fee", amount baseFee),
      ("max_fee_per_gas", amount pricing.maxFee),
      ("max_priority_fee_per_gas", amount pricing.priorityFee)]
  | pendingLags pending expected =>
    [("pending", word pending), ("expected", word expected),
      ("lag", .number (expected.toNat - pending.toNat))]
  | noncesReserved first stop => [("start", word first), ("end", word stop)]
  | batchBuilt size firstNonce =>
    ("size", .number size) :: firstNonce.toList.map fun nonce => ("first_nonce", word nonce)
  | batchSubmitted size pricing =>
    [("size", .number size), ("max_fee_per_gas", amount pricing.maxFee),
      ("gas_limit", amount pricing.gasLimit)]
  | unexpectedHash nonce expected returned =>
    [("nonce", word nonce), ("expected", .text expected.text), ("returned", .text returned.text)]
  | sent nonce hash => [("nonce", word nonce), ("tx_hash", .text hash.text)]
  | rejected nonce rejection =>
    [("nonce", word nonce), ("kind", .text rejection.kind.name), ("error", .text rejection.message)]
  | batchDone accepted failed => [("sent", .number accepted), ("failed", .number failed)]
  | slotAwaited slot wait => [("slot", .number slot), ("wait_secs", .real wait)]
  | slotReached slot => [("slot", .number slot)]
  | scheduleDone runs => [("state", .text "Finished"), ("runs", .number runs)]
  | runDone batches accepted failed =>
    [("batches", .number batches), ("sent", .number accepted), ("failed", .number failed)]
  | someRejected failed => [("failed", .number failed)]
  | invalidConfiguration failure => [("error", .text failure.message)]
  | runFailed failure =>
    [("error", .text failure.message), ("retryable", .flag failure.isRetryable)]
  | replaying hash block replayBlock =>
    [("tx_hash", .text hash.text), ("block", word block), ("replay_block", word replayBlock)]
  | replaySucceeded hash => [("tx_hash", .text hash.text)]
  | notFailed hash => [("tx_hash", .text hash.text)]

end Notice

end TxLoad

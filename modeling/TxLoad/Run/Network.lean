import TxLoad.Duration
import TxLoad.Transfer

/-! # The endpoints that a run talks to

An endpoint is a machine that changes its state with every call. A reply comes after a delay and is
a value, a failure, or a fault that ends the computation that waits for it.
-/

namespace TxLoad

inductive Answer (α : Type)
  | value (a : α)
  | failure (f : Failure)
  | fault (f : Fault)
  deriving Repr

def Answer.toExcept {α : Type} : Answer α → Except Stop α
  | .value a => .ok a
  | .failure f => .error (.failure f)
  | .fault f => .error (.fault f)

structure Reply (α : Type) where
  delay : Duration
  answer : Answer α
  deriving Repr

namespace Reply

variable {α β : Type}

def now (answer : Answer α) : Reply α := ⟨.zero, answer⟩

def fault? (r : Reply α) : Option Fault :=
  match r.answer with
  | .fault f => some f
  | _ => none

/-- A fault that comes without delay. -/
def instantFault? (r : Reply α) : Option Fault := if r.delay.nanos = 0 then r.fault? else none

end Reply

/-- A transaction as the object of a call that is not mined. -/
structure CallObject where
  /-- The fee is a base fee and a priority fee, and not one gas price. -/
  dynamicFee : Bool
  gasPrice : Option Word256 := none
  request : Request
  deriving DecidableEq, Repr, Inhabited

inductive Call
  | genesis (url : String)
  | chainId
  | estimateGas (probe : CallObject)
  | baseFee
  | priorityFee
  | pendingCount (account : Address)
  | submit (payload : Bytes)
  | transaction (hash : Hash)
  | receipt (hash : Hash)
  | callAt (call : CallObject) (block : Word64)
  deriving DecidableEq, Repr

/-! ## Reads that are made together -/

/-- The replies to the three reads of one pricing, which are started together in this order. -/
structure FeeReplies where
  gas : Reply Word256
  baseFee : Reply (Option Word256)
  priorityFee : Reply Word256

namespace FeeReplies

/-- The reads that are started. A read that fails with a fault at once keeps the later ones from
being started. -/
def started (r : FeeReplies) (probe : CallObject) : List Call :=
  if r.gas.instantFault?.isSome then [.estimateGas probe]
  else if r.baseFee.instantFault?.isSome then [.estimateGas probe, .baseFee]
  else [.estimateGas probe, .baseFee, .priorityFee]

def delays (r : FeeReplies) : List Nat :=
  [r.gas.delay.nanos, r.baseFee.delay.nanos, r.priorityFee.delay.nanos]

/-- How often the reads have been looked at after their start, at a given time: once at each moment
at which one of them goes on. -/
def looks (r : FeeReplies) (time : Nat) : Nat :=
  (r.delays.filter fun delay => 0 < delay && delay ≤ time).eraseDups.length

/-- The faults of the reads, with the delay after which each comes and the read's position. -/
def faults (r : FeeReplies) : List (Nat × Nat × Fault) :=
  (r.gas.fault?.toList.map fun f => (r.gas.delay.nanos, 0, f))
    ++ (r.baseFee.fault?.toList.map fun f => (r.baseFee.delay.nanos, 1, f))
    ++ r.priorityFee.fault?.toList.map fun f => (r.priorityFee.delay.nanos, 2, f)

/-- The fault that comes first. Each look begins one read further on, so of the faults at one moment
the first in the order of that look counts. -/
def firstFault? (r : FeeReplies) : Option (Duration × Fault) :=
  match (r.faults.map Prod.fst).min? with
  | none => none
  | some time =>
    let order := [0, 1, 2].map fun i => (i + r.looks time) % 3
    order.findSome? fun position =>
      (r.faults.find? fun fault => fault.1 = time && fault.2.1 = position).map fun fault =>
        (⟨time⟩, fault.2.2)

/-- The time until all reads are answered. -/
def elapsed (r : FeeReplies) : Duration :=
  (r.gas.delay.longer r.baseFee.delay).longer r.priorityFee.delay

/-- The replies of reads that are made one by one. A read that is not started shares the fault that
kept it from being started. -/
def ofReads {σ : Type} (gas : σ → Reply Word256 × σ) (baseFee : σ → Reply (Option Word256) × σ)
    (priorityFee : σ → Reply Word256 × σ) (state : σ) : FeeReplies × σ :=
  let (gas, state) := gas state
  match gas.instantFault? with
  | some fault => (⟨gas, .now (.fault fault), .now (.fault fault)⟩, state)
  | none =>
    let (baseFee, state) := baseFee state
    match baseFee.instantFault? with
    | some fault => (⟨gas, baseFee, .now (.fault fault)⟩, state)
    | none =>
      let (priorityFee, state) := priorityFee state
      (⟨gas, baseFee, priorityFee⟩, state)

end FeeReplies

/-! ## The endpoints -/

/-- The execution endpoint and the consensus endpoint of a run. -/
structure Network (σ : Type) where
  genesisTime : String → σ → Reply Word64 × σ
  chainId : σ → Reply Word64 × σ
  fees : CallObject → σ → FeeReplies × σ
  pendingCount : Address → σ → Reply Word64 × σ
  /-- The reply to a payload; nothing if there never is one. -/
  submit : Bytes → σ → Option (Reply Hash) × σ
  /-- What becomes of the endpoint when its acknowledgement of a payload is received. -/
  acknowledge : Bytes → σ → σ

/-- A mined or pending transaction, as a node describes it. -/
structure KnownTransaction where
  sender : Address
  recipient : Option Address
  value : Word256
  gas : Word256
  gasPrice : Option Word256
  input : Bytes
  deriving DecidableEq, Repr, Inhabited

structure Receipt where
  status : Option Word64
  block : Option Word64
  deriving DecidableEq, Repr, Inhabited

/-- The lookups of transactions that were mined. -/
structure Archive (σ : Type) where
  transaction : Hash → σ → Reply (Option KnownTransaction) × σ
  receipt : Hash → σ → Reply (Option Receipt) × σ
  callAt : CallObject → Word64 → σ → Reply Bytes × σ

end TxLoad

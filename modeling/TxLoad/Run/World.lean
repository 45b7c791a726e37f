import TxLoad.Run.Network
import TxLoad.Telemetry.Notice
import TxLoad.Telemetry.Tally

/-! # Actions in the course of a run

The world of a run holds the state of its endpoints, the time that has passed, and what the run has
done so far. An action changes the world and gives a result or stops. Time passes only while an
action waits; a run may be cut off at a moment, and an action that would wait beyond it stops
there.
-/

namespace TxLoad

structure World (σ : Type) where
  network : σ
  now : Duration := .zero
  cutOff : Option Duration := none
  /-- How often the clock has been read. -/
  readings : Nat := 0
  calls : List (Duration × Call) := []
  notices : List Notice := []
  tally : Tally := {}
  /-- One past the last nonce that was handed out. -/
  handedOut : Word64 := 0

abbrev Act (σ α : Type) := ExceptT Stop (StateM (World σ)) α

/-- The unix time in milliseconds at each reading, given how many came before and how much time has
passed. -/
abbrev Clock := Nat → Duration → Int

namespace Act

variable {σ α : Type}

def stop (s : Stop) : Act σ α := throw s

def fail (f : Failure) : Act σ α := throw (.failure f)

def ofExcept : Except Stop α → Act σ α
  | .ok a => pure a
  | .error s => throw s

def ofFault : Except Fault α → Act σ α
  | .ok a => pure a
  | .error f => throw (.fault f)

def notice (n : Notice) : Act σ Unit := modify fun w => { w with notices := w.notices ++ [n] }

def count (f : Tally → Tally) : Act σ Unit := modify fun w => { w with tally := f w.tally }

def logCalls (calls : List Call) : Act σ Unit :=
  modify fun w => { w with calls := w.calls ++ calls.map fun call => (w.now, call) }

/-- Lets the endpoints make a step. -/
def step (f : σ → α × σ) : Act σ α :=
  modifyGet fun w => ((f w.network).1, { w with network := (f w.network).2 })

def sleep (d : Duration) : Act σ Unit := do
  let w ← get
  let wake := w.now.plus d
  match w.cutOff with
  | some moment =>
    if moment.nanos < wake.nanos then
      set { w with now := moment }
      throw .cut
    else set { w with now := wake }
  | none => set { w with now := wake }

/-- Makes a call and waits for its reply. -/
def ask (call : Call) (f : σ → Reply α × σ) : Act σ α := do
  logCalls [call]
  let reply ← step f
  sleep reply.delay
  ofExcept reply.answer.toExcept

/-- Reads the clock; a time before 1970 reads as its start. -/
def readClock (clock : Clock) : Act σ Word64 := do
  let w ← get
  set { w with readings := w.readings + 1 }
  return BitVec.ofNat 64 (clock w.readings w.now).toNat

/-- The answers to the three reads of one pricing, which are waited for together. A fault of one
ends the wait for all. -/
def askFees (network : Network σ) (probe : CallObject) :
    Act σ (Answer Word256 × Answer (Option Word256) × Answer Word256) := do
  let replies ← step (network.fees probe)
  logCalls (replies.started probe)
  match replies.firstFault? with
  | some (delay, fault) => do
    sleep delay
    throw (.fault fault)
  | none => do
    sleep replies.elapsed
    return (replies.gas.answer, replies.baseFee.answer, replies.priorityFee.answer)

end Act

end TxLoad

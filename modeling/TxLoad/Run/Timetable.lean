import TxLoad.Run.World
import TxLoad.SlotTime

/-! # Runs at the start of slots

A timetable goes through its targets in order. For each it waits until the target's slot starts and
then runs one cycle. A target is passed when its cycle has succeeded, so after a failure, or after a
run that was cut off, the next run begins with the same target again.
-/

namespace TxLoad

/-- A position in the epoch. -/
abbrev Target := BitVec 8

inductive Phase
  | idle
  | waiting (target : Target) (wait : Duration)
  | dispatching (target : Target)
  | finished
  deriving DecidableEq, Repr, Inhabited

structure Timetable where
  genesis : Word64
  passed : List Target
  remaining : List Target
  phase : Phase
  deriving DecidableEq, Repr, Inhabited

namespace Timetable

def new (genesis : Word64) (targets : List Target) : Timetable := ⟨genesis, [], targets, .idle⟩

variable {σ β : Type}

/-- Waits for the start of the target's slot, which is `wait` away. -/
def await (target : Target) (wait : Duration) : Act σ Unit := do
  Act.count (Tally.setSlotWait wait.inSeconds)
  Act.notice (.slotAwaited target.toNat wait.inSeconds)
  Act.sleep wait

/-- The wait for the target's slot from the present moment on. -/
def nextWait (clock : Clock) (genesis : Word64) (target : Target) : Act σ Duration := do
  Act.ofFault (SlotTime.waitUntil (← Act.readClock clock) genesis target)

/-- The cycle of a target whose slot has started. -/
def fire (cycle : Target → Act σ β) (target : Target) : Act σ β := do
  Act.notice (.slotReached target.toNat)
  cycle target

/-- Runs the cycles of the remaining targets: their results, what the timetable comes to, and the
world after it. -/
def runFrom (clock : Clock) (cycle : Target → Act σ β) (genesis : Word64) :
    List Target → List Target → Phase → World σ → (Except Stop (List β) × Timetable) × World σ
  | passed, [], _, w => ((.ok [], ⟨genesis, passed, [], .finished⟩), w)
  | passed, target :: rest, phase, w =>
    match nextWait clock genesis target w with
    | (.error s, w) => ((.error s, ⟨genesis, passed, target :: rest, phase⟩), w)
    | (.ok wait, w) =>
      match await target wait w with
      | (.error s, w) => ((.error s, ⟨genesis, passed, target :: rest, .waiting target wait⟩), w)
      | (.ok (), w) =>
        match fire cycle target w with
        | (.error s, w) => ((.error s, ⟨genesis, passed, target :: rest, .dispatching target⟩), w)
        | (.ok result, w) =>
          let ((results, timetable), w) :=
            runFrom clock cycle genesis (passed ++ [target]) rest .idle w
          ((results.map (result :: ·), timetable), w)

def run (clock : Clock) (cycle : Target → Act σ β) (t : Timetable) (w : World σ) :
    (Except Stop (List β) × Timetable) × World σ :=
  runFrom clock cycle t.genesis t.passed t.remaining t.phase w

end Timetable

end TxLoad

import TxLoad.Duration
import TxLoad.Word

/-! # Time in slots and epochs

From the genesis on, time is divided into slots of 12 seconds, and 32 slots make an epoch. A target
names a position in the epoch; only its remainder modulo 32 counts. The wait for a target ends at
the next start of its slot that is still to come: a slot that starts now is waited for until the
next epoch.
-/

namespace TxLoad.SlotTime

def slotSeconds : Nat := 12

def slotsPerEpoch : Nat := 32

def epochSeconds : Nat := slotSeconds * slotsPerEpoch

/-- Whole seconds from `now` to the next start of the target's slot. -/
def secondsUntil (now genesis : Word64) (target : BitVec 8) : Except Fault Word64 :=
  let position := target.toNat % slotsPerEpoch
  if now.toNat < genesis.toNat then
    Word64.plus (genesis - now) (BitVec.ofNat 64 (position * slotSeconds))
  else
    let elapsed := (now - genesis).toInt
    let slot := (elapsed.tdiv slotSeconds).tmod slotsPerEpoch
    let intoSlot := (elapsed.tmod epochSeconds).tmod slotSeconds
    let wait := (position - slot).emod slotsPerEpoch * slotSeconds - intoSlot
    .ok (BitVec.ofInt 64 (if wait ≤ 0 then wait + epochSeconds else wait))

/-- The span from `nowMillis` to the next start of the target's slot. The whole seconds are counted
from the start of the running second, of which a part has gone by. -/
def waitUntil (nowMillis genesis : Word64) (target : BitVec 8) : Except Fault Duration := do
  let seconds ← secondsUntil (nowMillis / 1000) genesis target
  return (Duration.ofSecs seconds.toNat).monus (.ofMillis (nowMillis.toNat % 1000))

end TxLoad.SlotTime

import TxLoad.Run.Timetable
import TxLoad.Text.Blank

/-! # What a run is to do

A plan is checked before it is carried out, because it may have been put together from anywhere.
-/

namespace TxLoad

structure Plan where
  account : Account
  recipient : Address
  amount : Word256
  endpoints : List String
  count : Word64
  batchSize : Word64
  pause : Duration
  slots : List Target
  beacon : Option String
  submitLimit : Duration
  metricsPort : Option (BitVec 16)

namespace Plan

/-- The first target that is no position in the epoch. -/
def strayTarget? (slots : List Target) : Option Target :=
  slots.find? fun target => SlotTime.slotsPerEpoch ≤ target.toNat

/-- What is wrong with the plan, the first of the conditions that it breaks. -/
def defect? (p : Plan) : Option Failure :=
  if p.endpoints.all Text.isBlank then some (.configuration .noEndpoint)
  else if p.count = 0 then some (.configuration .noCount)
  else if p.batchSize = 0 then some (.configuration .noBatchSize)
  else
    match strayTarget? p.slots with
    | some target => some (.configuration (.slotRange target.toNat))
    | none =>
      if !p.slots.isEmpty && p.beacon.isNone then some (.scheduling (p.slots.map BitVec.toNat))
      else none

def check (p : Plan) : Except Failure Unit :=
  match p.defect? with
  | some failure => .error failure
  | none => .ok ()

end Plan

end TxLoad

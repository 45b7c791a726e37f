import TxLoad.Proofs.Run.Price
import TxLoad.Proofs.Run.Reservation

/-! # What a prepared batch is made of

A batch is made of the answers to four reads, all of them made by the same preparation: its price is
what the answers to the fee reads come to, and its nonces are those from the pending count on. What
happened before the preparation, such as the prices and the nonces of earlier batches, has no part
in it. It may also have been cut off; one that returns was not.
-/

namespace TxLoad

variable {σ : Type}

/-- What the endpoints can tell of a run. -/
def World.outward (w : World σ) : σ × Duration × List (Duration × Call) :=
  (w.network, w.now, w.calls)

namespace FeeReplies

theorem le_elapsed {r : FeeReplies} {delay : Nat} (h : delay ∈ r.delays) :
    delay ≤ r.elapsed.nanos := by
  show delay ≤ max (max r.gas.delay.nanos r.baseFee.delay.nanos) r.priorityFee.delay.nanos
  simp only [delays, List.mem_cons, List.not_mem_nil, or_false] at h
  omega

end FeeReplies

namespace Pricing

variable {network : Network σ} {sender recipient : Address} {amount : Word256} {w v : World σ}
  {pricing : Pricing}

/-- A price that is found is what the answers to its own reads come to. -/
theorem comes_of_returns_obtain {replies : FeeReplies}
    (hReplies : (network.fees (probe sender recipient amount) w.network).1 = replies)
    (h : (obtain network sender recipient amount).Returns w pricing v) :
    Comes replies.gas.answer replies.baseFee.answer replies.priorityFee.answer (.ok pricing) ∧
      v.outward = ((network.fees (probe sender recipient amount) w.network).2,
        w.now.plus replies.elapsed, w.calls ++ (feeCalls (probe sender recipient amount)).map
          fun call => (w.now, call)) := by
  rw [obtain_eq] at h
  obtain ⟨answers, u, hAsked, hPriced⟩ := Act.returns_bind.mp h
  obtain ⟨hAnswered, rfl, hWorld⟩ := Act.answered_of_returns_askFees hReplies hAsked
  have hKeeps : Act.Keeps World.outward (ofAnswers
      (replies.gas.answer, replies.baseFee.answer, replies.priorityFee.answer) :
        Act σ Pricing) :=
    keeps_ofAnswers (fun _ _ => rfl) (fun _ _ _ => rfl) (fun _ => rfl) _
  have hComes := comes_ofAnswers hAnswered.gas hAnswered.baseFee hAnswered.priorityFee u
  rw [show ofAnswers _ u = (.ok pricing, v) from hPriced] at hComes
  refine ⟨hComes, ?_⟩
  rw [hKeeps.of_returns hPriced, hWorld]
  rfl

end Pricing

namespace NonceRange

/-- Nonces that are reserved are those from the pending count on that the call itself has read. -/
theorem outward_of_returns_reserve {network : Network σ} {account : Address} {size : Word64}
    {w v : World σ} {range : NonceRange} (h : (reserve network account size).Returns w range v) :
    (network.pendingCount account w.network).1.answer = .value range.first ∧
      v.outward = ((network.pendingCount account w.network).2,
        w.now.plus (network.pendingCount account w.network).1.delay,
        w.calls ++ [(w.now, .pendingCount account)]) := by
  have hReserves := reserves_reserve network account size w
  rw [show reserve network account size w = (.ok range, v) from h] at hReserves
  cases hReserves with
  | reserved hSize hPending _ _ _ =>
    refine ⟨hPending, ?_⟩
    have hRead := h
    rw [reserve_of_ne_zero network account hSize] at hRead
    obtain ⟨pending, u, hRead, _⟩ := Act.returns_bind.mp hRead
    have hHandOut : handOut pending size (warned pending u) = (.ok range, v) :=
      (reserve_of_read hSize hRead).symm.trans h
    have hKeeps : Act.Keeps World.outward (handOut pending size : Act σ NonceRange) := by
      intro t
      rw [handOut_apply]
      cases pending.plus size <;> rfl
    obtain rfl := Act.world_of_returns_ask hRead
    exact hKeeps.of_returns hHandOut

/-- The nonces of a range, in order. -/
theorem toNat_getElem_toList {range : NonceRange} {i : Nat} (h : i < range.toList.length) :
    range.toList[i].toNat = range.first.toNat + i := by
  have hMap := congrArg (fun nonces => nonces[i]?) range.map_toNat_toList
  have hSize : i < range.size := range.length_toList ▸ h
  rw [List.getElem?_map, List.getElem?_map, List.getElem?_eq_getElem h,
    List.getElem?_range hSize] at hMap
  exact Option.some.inj hMap

end NonceRange

/-- The transfer carries what one account sends on given terms, at a price and with a nonce, and so
does its payload. -/
structure SignedTransfer.Carries (transfer : SignedTransfer) (account : Account)
    (terms : TransferTerms) (pricing : Pricing) (nonce : Nat) : Prop where
  nonce_eq : transfer.nonce.toNat = nonce
  requested : transfer.request =
    { sender := some account.address
      recipient := some terms.recipient
      value := some terms.amount
      nonce := some (BitVec.ofNat 256 nonce)
      gasLimit := some pricing.gasLimit
      maxFee := some pricing.maxFee
      priorityFee := some pricing.priorityFee
      chainId := some terms.chainId }
  read : ∃ fields, readPayload? transfer.payload =
      some (fields, account.key.sign fields.signingDigest) ∧
    fields =
      { chainId := terms.chainId
        nonce := BitVec.ofNat 256 nonce
        priorityFee := pricing.priorityFee
        maxFee := pricing.maxFee
        gasLimit := pricing.gasLimit
        recipient := some terms.recipient
        value := terms.amount
        data := []
        accessList := [] }
  hash_eq : transfer.hash = keccak256 transfer.payload

namespace Batch

/-- A transfer that is signed for a batch carries what the batch is made for. -/
theorem carries_of_sign_eq_ok {account : Account} {terms : TransferTerms} {pricing : Pricing}
    {nonce : Word64} {transfer : SignedTransfer}
    (h : account.sign (request account.address terms pricing nonce) = .ok transfer) :
    transfer.Carries account terms pricing nonce.toNat := by
  obtain ⟨⟨wide, hWide, hNonce⟩, _, hPayload, hHash, hRequest⟩ := Account.sign_eq_ok_iff.mp h
  cases hWide
  have hWord : BitVec.ofNat 256 nonce.toNat = nonce.setWidth 256 := BitVec.ofNat_toNat 256 nonce
  have hLow := Crypto.isLow_sign account.key
    (request account.address terms pricing nonce).fields.signingDigest
  have hShort : (request account.address terms pricing nonce).fields.footprint < 2 ^ 63 := by
    show 0 < 2 ^ 63
    decide
  exact {
    nonce_eq := hNonce.trans (toNat_setWidth_nonce nonce)
    requested := by
      rw [hRequest, hWord]
      rfl
    read := by
      refine ⟨_, ?_, rfl⟩
      rw [hPayload, hWord]
      exact readPayload?_signedPayload hLow.fits.1 hLow.fits.2
        (length_signedPayload_lt hShort hLow.fits.1 hLow.fits.2)
    hash_eq := hHash }

/-- What a batch is made of: the answers to the fee reads and the pending count. -/
structure MadeOf (batch : Batch) (account : Account) (terms : TransferTerms) (size : Nat)
    (replies : FeeReplies) (pending : Word64) : Prop where
  priced : Pricing.Comes replies.gas.answer replies.baseFee.answer replies.priorityFee.answer
    (.ok batch.pricing)
  complete : batch.transfers.length = size
  carries : ∀ (i : Nat) (h : i < batch.transfers.length),
    batch.transfers[i].Carries account terms batch.pricing (pending.toNat + i)

variable {network : Network σ} {account : Account} {terms : TransferTerms} {size : Word64}
  {w w' : World σ} {batch : Batch} {replies : FeeReplies}

/-- The nonces follow each other from the pending count on. -/
theorem MadeOf.nonces {n : Nat} {pending : Word64}
    (h : batch.MadeOf account terms n replies pending) :
    batch.nonces = (List.range n).map (pending.toNat + ·) := by
  show batch.transfers.map (fun transfer => transfer.nonce.toNat) = _
  apply List.ext_getElem
  · rw [List.length_map, List.length_map, List.length_range, h.complete]
  · intro i hi _
    rw [List.length_map] at hi
    rw [List.getElem_map, List.getElem_map, List.getElem_range]
    exact (h.carries i hi).nonce_eq

theorem madeOf_of_sign_eq_ok {range : NonceRange}
    (hPriced : Pricing.Comes replies.gas.answer replies.baseFee.answer
      replies.priorityFee.answer (.ok batch.pricing))
    (hSign : sign account terms batch.pricing range.toList = .ok batch.transfers) :
    batch.MadeOf account terms range.size replies range.first where
  priced := hPriced
  complete := (forall₂_of_sign_eq_ok hSign).length_eq.symm.trans range.length_toList
  carries := by
    intro i h
    obtain ⟨hLength, hSigned⟩ := List.forall₂_iff_get.mp (forall₂_of_sign_eq_ok hSign)
    have hNonce : i < range.toList.length := hLength ▸ h
    rw [← NonceRange.toNat_getElem_toList hNonce]
    exact carries_of_sign_eq_ok (hSigned i hNonce h)

/-- A batch that is prepared is complete and made of the answers to its own reads, whatever was
prepared before. Each read is made once, the pending count after the others are answered, and there
are no other calls. What the gas is estimated for is what each transfer carries. -/
theorem complete_of_returns (h : (prepare network account terms size).Returns w batch w')
    {probe : CallObject}
    (hProbe : probe = Pricing.probe account.address terms.recipient terms.amount)
    {s : σ} (hFees : network.fees probe w.network = (replies, s)) :
    1 ≤ size.toNat ∧
      (∃ pending, (network.pendingCount account.address s).1.answer = .value pending ∧
        batch.MadeOf account terms size.toNat replies pending) ∧
      (∃ t, w'.calls = w.calls ++ [(w.now, .estimateGas probe), (w.now, .baseFee),
          (w.now, .priorityFee), (t, .pendingCount account.address)] ∧
        ∀ delay ∈ replies.delays, w.now.nanos + delay ≤ t.nanos) ∧
      w'.network = (network.pendingCount account.address s).2 ∧
      ∀ transfer ∈ batch.transfers,
        transfer.request.sender = probe.request.sender ∧
        transfer.request.recipient = probe.request.recipient ∧
        transfer.request.value = probe.request.value := by
  obtain ⟨v, range, u, hObtain, hReserve, hSigned, hWorld⟩ := stages_of_returns h
  subst hProbe
  obtain ⟨hComes, hPriced⟩ := Pricing.comes_of_returns_obtain (congrArg Prod.fst hFees) hObtain
  rw [hFees] at hPriced
  obtain rfl : v.network = s := congrArg Prod.fst hPriced
  have hNow : v.now = w.now.plus replies.elapsed := congrArg (fun seen => seen.2.1) hPriced
  have hCalls : v.calls = _ := congrArg (fun seen => seen.2.2) hPriced
  obtain ⟨hPending, hReserved⟩ := NonceRange.outward_of_returns_reserve hReserve
  have hMade := madeOf_of_sign_eq_ok hComes hSigned
  obtain ⟨hSize, hLength⟩ := NonceRange.returns_reserve hReserve
  rw [hLength] at hMade
  subst hWorld
  refine ⟨?_, ⟨range.first, hPending, hMade⟩, ⟨v.now, ?_, ?_⟩, congrArg Prod.fst hReserved, ?_⟩
  · exact Nat.pos_of_ne_zero (Word64.toNat_ne_zero hSize)
  · show u.calls = _
    rw [show u.calls = _ from congrArg (fun seen => seen.2.2) hReserved, hCalls,
      List.append_assoc]
    rfl
  · intro delay hDelay
    have hLe := FeeReplies.le_elapsed hDelay
    rw [hNow]
    exact Nat.add_le_add_left hLe _
  · intro transfer hMem
    obtain ⟨i, hi, rfl⟩ := List.mem_iff_getElem.mp hMem
    rw [(hMade.carries i hi).requested]
    exact ⟨rfl, rfl, rfl⟩

/-- Nine seconds into a run, when more nonces were handed out than the chain knows of and the run is
about to be cut off. -/
def nineIn : World (Nat × Nat) where
  network := (5, 4)
  now := .ofSecs 9
  cutOff := some (.ofSecs 9)
  calls := [(.zero, .chainId)]
  handedOut := 14

/-- A batch of three is made then of what is read then. -/
theorem late_batch_complete : ∃ batch w',
    (prepare pickyChain Plan.sevenByThree.account (Plan.sevenByThree.terms 1) 3).Returns
        nineIn batch w' ∧
      batch.pricing = ⟨25200, 2001, 1⟩ ∧
      batch.nonces = [11, 12, 13] ∧
      w'.calls.length = 5 := by
  obtain ⟨v, hPricing, u, hRange⟩ : ∃ v, (Pricing.obtain pickyChain
      Plan.sevenByThree.account.address (Plan.sevenByThree.terms 1).recipient
      (Plan.sevenByThree.terms 1).amount).Returns nineIn ⟨25200, 2001, 1⟩ v ∧
      ∃ u, (NonceRange.reserve pickyChain Plan.sevenByThree.account.address 3).Returns v
        ⟨11, 14⟩ u := ⟨_, rfl, _, rfl⟩
  obtain ⟨batch, w', hPrepare⟩ := exists_returns_prepare hPricing hRange (by decide)
  obtain ⟨_, ⟨pending, hPending, hMade⟩, ⟨t, hCalls, _⟩, _⟩ :=
    complete_of_returns hPrepare rfl rfl
  cases hPending
  have hLimit : Pricing.Limits (.value 21000) 25200 :=
    .estimated (by decide) (Pricing.isLeast_fifthMore 21000)
  have hPrice : Pricing.Comes (.value 21000) (.value (some 1000)) (.value 1)
      (.ok ⟨25200, 2001, 1⟩) := .limited hLimit (.priced rfl)
  refine ⟨batch, w', hPrepare, Except.ok.inj (hMade.priced.unique hPrice), hMade.nonces, ?_⟩
  rw [hCalls]
  rfl

end Batch

end TxLoad

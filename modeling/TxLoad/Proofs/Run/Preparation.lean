import Mathlib.Algebra.GroupWithZero.Nat
import Mathlib.Data.List.Forall2
import TxLoad.Proofs.Run.Calls
import TxLoad.Proofs.Signing
import TxLoad.Run.Batch

/-! # What preparing a batch takes

A batch that is prepared has as many transfers as were asked for, and its preparation makes four
calls: the three reads of the price, started together, and then the read of the pending count. A
preparation that stops has made the first of these calls, and no other: in particular it submits
nothing.
-/

namespace TxLoad

variable {σ : Type}

/-- The three reads of one pricing. -/
def feeCalls (probe : CallObject) : List Call := [.estimateGas probe, .baseFee, .priorityFee]

namespace FeeReplies

theorem started_prefix (r : FeeReplies) (probe : CallObject) :
    r.started probe <+: feeCalls probe := by
  unfold started feeCalls
  split
  · exact ⟨[.baseFee, .priorityFee], rfl⟩
  · split
    · exact ⟨[.priorityFee], rfl⟩
    · exact List.prefix_rfl

/-- The positions in which the reads are looked at are the three positions in some order. -/
theorem mem_lookOrder {position : Nat} (h : position < 3) (looks : Nat) :
    position ∈ [0, 1, 2].map fun i => (i + looks) % 3 := by
  simp only [List.map_cons, List.map_nil, List.mem_cons, List.not_mem_nil, or_false]
  omega

theorem position_lt_of_mem_faults {r : FeeReplies} {fault : Nat × Nat × Fault}
    (h : fault ∈ r.faults) : fault.2.1 < 3 := by
  unfold faults at h
  simp only [List.mem_append, List.mem_map] at h
  rcases h with (⟨f, _, rfl⟩ | ⟨f, _, rfl⟩) | ⟨f, _, rfl⟩ <;> simp

/-- Of reads with faults, one comes first. -/
theorem faults_eq_nil_of_firstFault?_eq_none {r : FeeReplies} (h : r.firstFault? = none) :
    r.faults = [] := by
  unfold firstFault? at h
  cases hTime : (r.faults.map Prod.fst).min? with
  | none => exact List.map_eq_nil_iff.mp (List.min?_eq_none_iff.mp hTime)
  | some time =>
    rw [hTime] at h
    obtain ⟨fault, hFault, rfl⟩ := List.mem_map.mp (List.min?_mem hTime)
    have hNone := List.findSome?_eq_none_iff.mp h fault.2.1
      (mem_lookOrder (position_lt_of_mem_faults hFault) _)
    have hFind := List.find?_eq_none.mp (Option.map_eq_none_iff.mp hNone) fault hFault
    simp at hFind

theorem instantFault?_eq_none {α : Type} {r : Reply α} (h : r.fault? = none) :
    r.instantFault? = none := by
  unfold Reply.instantFault?
  split
  · exact h
  · rfl

/-- Where no read faults, all are started. -/
theorem started_of_firstFault?_eq_none {r : FeeReplies} (h : r.firstFault? = none)
    (probe : CallObject) : r.started probe = feeCalls probe := by
  have hFaults := faults_eq_nil_of_firstFault?_eq_none h
  unfold faults at hFaults
  obtain ⟨hEarly, _⟩ := List.append_eq_nil_iff.mp hFaults
  obtain ⟨hGas, hBase⟩ := List.append_eq_nil_iff.mp hEarly
  have hGas : r.gas.fault? = none := Option.toList_eq_nil_iff.mp (List.map_eq_nil_iff.mp hGas)
  have hBase : r.baseFee.fault? = none :=
    Option.toList_eq_nil_iff.mp (List.map_eq_nil_iff.mp hBase)
  unfold started feeCalls
  rw [instantFault?_eq_none hGas, instantFault?_eq_none hBase]
  rfl

/-- What the reads come to together. -/
def answers (r : FeeReplies) :
    Except Stop (Answer Word256 × Answer (Option Word256) × Answer Word256) :=
  match r.firstFault? with
  | some (_, fault) => .error (.fault fault)
  | none => .ok (r.gas.answer, r.baseFee.answer, r.priorityFee.answer)

/-- How long the reads are waited for together. -/
def span (r : FeeReplies) : Duration :=
  match r.firstFault? with
  | some (delay, _) => delay
  | none => r.elapsed

end FeeReplies

namespace Act

/-- The reads of a price in an open world. -/
theorem askFees_apply (network : Network σ) (probe : CallObject) {w : World σ}
    (hOpen : w.cutOff = none) :
    askFees network probe w =
      ((network.fees probe w.network).1.answers,
        { w with
          network := (network.fees probe w.network).2
          now := w.now.plus (network.fees probe w.network).1.span
          calls := w.calls ++
            ((network.fees probe w.network).1.started probe).map fun call => (w.now, call) }) := by
  obtain ⟨s, now, cutOff, readings, calls, notices, tally, handedOut⟩ := w
  change cutOff = none at hOpen
  subst hOpen
  unfold askFees FeeReplies.answers FeeReplies.span
  rw [bind_apply]
  show (logCalls ((network.fees probe s).1.started probe) >>= fun _ => _) _ = _
  rw [bind_apply]
  show (match (network.fees probe s).1.firstFault? with
    | some (delay, fault) => _
    | none => _ : Act σ _) _ = _
  cases (network.fees probe s).1.firstFault? <;> rfl

theorem makes_askFees (network : Network σ) (probe : CallObject) {w : World σ}
    (hOpen : w.cutOff = none) : (askFees network probe).Makes w (feeCalls probe) := by
  refine makes_bind_silent (makes_step _ w) ?_
  intro replies v hStep
  have hv : v.cutOff = none := (makes_step _ w).all_open hOpen hStep
  cases hFault : replies.firstFault? with
  | some first =>
    -- the reads that were started are all there is: the action ends with the fault
    refine Makes.of_prefix (makes_bind_last (makes_logCalls _ v) ?_)
      (replies.started_prefix probe) ?_
    · intro _ u hLogged
      have hu : u.cutOff = none := (makes_logCalls _ v).all_open hv hLogged
      exact makes_bind_silent (makes_sleep _ hu) fun _ t _ => makes_throw _ t
    · intro answers w' hReturns
      obtain ⟨_, u, _, hRest⟩ := returns_bind.mp hReturns
      obtain ⟨_, t, _, hThrow⟩ := returns_bind.mp hRest
      exact not_returns_throw hThrow
  | none =>
    rw [replies.started_of_firstFault?_eq_none hFault probe]
    refine makes_bind_last (makes_logCalls _ v) ?_
    intro _ u hLogged
    have hu : u.cutOff = none := (makes_logCalls _ v).all_open hv hLogged
    exact makes_bind_silent (makes_sleep _ hu) fun _ t _ => makes_pure _ t

end Act

namespace Pricing

theorem makes_gasLimitOf (answer : Answer Word256) (w : World σ) :
    (gasLimitOf answer : Act σ Word256).Makes w [] := by
  cases answer with
  | value estimate => exact Act.makes_ofFault _ w
  | failure f =>
    refine Act.makes_bind_silent (Act.makes_notice _ w) fun _ v _ => ?_
    exact Act.makes_bind_silent (Act.makes_count _ v) fun _ u _ => Act.makes_pure _ u
  | fault f => exact Act.makes_throw _ w

/-- What follows from the answers to the reads of a price. -/
def ofAnswers : Answer Word256 × Answer (Option Word256) × Answer Word256 → Act σ Pricing
  | (estimate, baseFee, priorityFee) => do
    let gasLimit ← gasLimitOf estimate
    let baseFee ← Act.ofExcept (baseFee.toExcept >>= baseFeeOf)
    let priorityFee ← Act.ofExcept priorityFee.toExcept
    let maxFee ← Act.ofFault (offeredFee baseFee priorityFee)
    let pricing : Pricing := ⟨gasLimit, maxFee, priorityFee⟩
    Act.notice (.priced baseFee pricing)
    return pricing

theorem obtain_eq (network : Network σ) (sender recipient : Address) (amount : Word256) :
    obtain network sender recipient amount =
      Act.askFees network (probe sender recipient amount) >>= ofAnswers := rfl

/-- The rest of a price once its gas limit is known. -/
def offer (gasLimit : Word256) (baseFee : Answer (Option Word256)) (priorityFee : Answer Word256) :
    Act σ Pricing := do
  let baseFee ← Act.ofExcept (baseFee.toExcept >>= baseFeeOf)
  let priorityFee ← Act.ofExcept priorityFee.toExcept
  let maxFee ← Act.ofFault (offeredFee baseFee priorityFee)
  let pricing : Pricing := ⟨gasLimit, maxFee, priorityFee⟩
  Act.notice (.priced baseFee pricing)
  return pricing

theorem ofAnswers_eq (estimate : Answer Word256) (baseFee : Answer (Option Word256))
    (priorityFee : Answer Word256) :
    (ofAnswers (estimate, baseFee, priorityFee) : Act σ Pricing) =
      gasLimitOf estimate >>= fun gasLimit => offer gasLimit baseFee priorityFee := rfl

/-- Nothing but the notice of the price comes of the fees. -/
theorem keeps_offer {γ : Type} {view : World σ → γ}
    (hPriced : ∀ fee pricing, Act.Keeps view (Act.notice (.priced fee pricing) : Act σ Unit))
    (gasLimit : Word256) (baseFee : Answer (Option Word256)) (priorityFee : Answer Word256) :
    Act.Keeps view (offer gasLimit baseFee priorityFee) := by
  refine Act.keeps_bind (Act.keeps_ofExcept _) fun baseFee => ?_
  refine Act.keeps_bind (Act.keeps_ofExcept _) fun priorityFee => ?_
  refine Act.keeps_bind (Act.keeps_ofFault _) fun maxFee => ?_
  exact Act.keeps_bind (hPriced _ _) fun _ => Act.keeps_pure _

/-- Nothing but the warning of a failed estimate, its count and the notice of the price comes of the
answers. -/
theorem keeps_ofAnswers {γ : Type} {view : World σ → γ}
    (hEstimate : ∀ f, Act.Keeps view (Act.notice (.estimateFailed f) : Act σ Unit))
    (hPriced : ∀ fee pricing, Act.Keeps view (Act.notice (.priced fee pricing) : Act σ Unit))
    (hCount : ∀ w, view { w with tally := w.tally.addFallback } = view w)
    (answers : Answer Word256 × Answer (Option Word256) × Answer Word256) :
    Act.Keeps view (ofAnswers answers) := by
  have hGas : Act.Keeps view (gasLimitOf answers.1 : Act σ Word256) := by
    cases answers.1 with
    | value estimate => exact Act.keeps_ofFault _
    | failure f =>
      refine Act.keeps_bind (hEstimate f) fun _ => ?_
      exact Act.keeps_bind (Act.keeps_modify hCount) fun _ => Act.keeps_pure _
    | fault f => exact Act.keeps_throw _
  exact Act.keeps_bind hGas fun gasLimit => keeps_offer hPriced gasLimit _ _

theorem view_obtain {γ : Type} (view : World σ → γ)
    (hEstimate : ∀ f, Act.Keeps view (Act.notice (.estimateFailed f) : Act σ Unit))
    (hPriced : ∀ fee pricing, Act.Keeps view (Act.notice (.priced fee pricing) : Act σ Unit))
    (hCount : ∀ w, view { w with tally := w.tally.addFallback } = view w) (network : Network σ)
    (sender recipient : Address) (amount : Word256) (w : World σ) :
    view (obtain network sender recipient amount w).2 =
      view (Act.askFees network (probe sender recipient amount) w).2 :=
  Act.view_bind (keeps_ofAnswers hEstimate hPriced hCount) w

theorem makes_ofAnswers (answers : Answer Word256 × Answer (Option Word256) × Answer Word256)
    (w : World σ) : (ofAnswers answers).Makes w [] := by
  refine Act.makes_bind_silent (makes_gasLimitOf answers.1 w) fun gasLimit v _ => ?_
  refine Act.makes_bind_silent (Act.makes_ofExcept _ v) fun baseFee v _ => ?_
  refine Act.makes_bind_silent (Act.makes_ofExcept _ v) fun priorityFee v _ => ?_
  refine Act.makes_bind_silent (Act.makes_ofFault _ v) fun maxFee v _ => ?_
  exact Act.makes_bind_silent (Act.makes_notice _ v) fun _ v _ => Act.makes_pure _ v

theorem makes_obtain (network : Network σ) (sender recipient : Address) (amount : Word256)
    {w : World σ} (hOpen : w.cutOff = none) :
    (obtain network sender recipient amount).Makes w
      (feeCalls (probe sender recipient amount)) :=
  Act.makes_bind_last (Act.makes_askFees network _ hOpen) fun answers v _ =>
    makes_ofAnswers answers v

end Pricing

namespace NonceRange

theorem length_toList (range : NonceRange) : range.toList.length = range.size := by
  rw [toList, List.length_map, List.length_range]

/-- Hands out the nonces from the pending count on. -/
def handOut (pending size : Word64) : Act σ NonceRange := do
  let stop ← Act.ofFault (pending.plus size)
  modify fun w => { w with handedOut := stop }
  Act.notice (.noncesReserved pending stop)
  return ⟨pending, stop⟩

theorem reserve_of_ne_zero (network : Network σ) (account : Address) {size : Word64}
    (hSize : size ≠ 0) :
    reserve network account size = (do
      let pending ← Act.ask (.pendingCount account) (network.pendingCount account)
      let w ← get
      if pending < w.handedOut then do
        Act.notice (.pendingLags pending w.handedOut)
        handOut pending size
      else handOut pending size) := by
  unfold reserve
  rw [if_neg hSize]
  rfl

theorem keeps_reserve {γ : Type} {view : World σ → γ} {network : Network σ} {account : Address}
    (hCall : ∀ w calls, view { w with calls := calls } = view w)
    (hStep : ∀ w, view { w with network := (network.pendingCount account w.network).2 } = view w)
    (hNow : ∀ w now, view { w with now := now } = view w)
    (hNotice : ∀ n, Act.Keeps view (Act.notice n : Act σ Unit))
    (hLast : ∀ w last, view { w with handedOut := last } = view w) (size : Word64) :
    Act.Keeps view (reserve network account size) := by
  by_cases hSize : size = 0
  · subst hSize
    exact fun _ => rfl
  rw [reserve_of_ne_zero network account hSize]
  refine Act.keeps_bind (Act.keeps_ask _ hCall hStep hNow) fun pending => ?_
  have hHandOut : Act.Keeps view (handOut pending size : Act σ NonceRange) := by
    refine Act.keeps_bind (Act.keeps_ofFault _) fun stop => ?_
    refine Act.keeps_bind (Act.keeps_modify fun w => hLast w stop) fun _ => ?_
    exact Act.keeps_bind (hNotice _) fun _ => Act.keeps_pure _
  refine Act.keeps_bind (fun _ => rfl) fun u => ?_
  split
  · exact Act.keeps_bind (hNotice _) fun _ => hHandOut
  · exact hHandOut

theorem makes_handOut (pending size : Word64) (w : World σ) :
    (handOut pending size : Act σ NonceRange).Makes w [] := by
  refine Act.makes_bind_silent (Act.makes_ofFault _ w) fun stop v _ => ?_
  refine Act.makes_bind_silent (Act.makes_nothing (by simp) (by simp)) fun _ v _ => ?_
  exact Act.makes_bind_silent (Act.makes_notice _ v) fun _ v _ => Act.makes_pure _ v

theorem returns_handOut {pending size : Word64} {w w' : World σ} {r : NonceRange}
    (h : (handOut pending size : Act σ NonceRange).Returns w r w') :
    r.first = pending ∧ r.stop.toNat = pending.toNat + size.toNat := by
  obtain ⟨stop, v, hStop, h⟩ := Act.returns_bind.mp h
  obtain ⟨_, _, _, h⟩ := Act.returns_bind.mp h
  obtain ⟨_, _, _, h⟩ := Act.returns_bind.mp h
  obtain ⟨rfl, _⟩ := Act.returns_pure.mp h
  exact ⟨rfl, fit_eq_ok_iff.mp (Act.returns_ofFault.mp hStop).1⟩

theorem not_returns_reserve_zero {network : Network σ} {account : Address} {w w' : World σ}
    {r : NonceRange} : ¬ (reserve network account 0).Returns w r w' := by
  intro h
  unfold reserve at h
  rw [if_pos rfl] at h
  obtain ⟨_, _, hFail, _⟩ := Act.returns_bind.mp h
  exact Act.not_returns_fail hFail

theorem makes_reserve (network : Network σ) (account : Address) (size : Word64) {w : World σ}
    (hOpen : w.cutOff = none) :
    (reserve network account size).Makes w [.pendingCount account] := by
  by_cases hSize : size = 0
  · subst hSize
    refine Act.Makes.of_prefix ?_ (List.nil_prefix : ([] : List Call) <+: _) fun _ _ =>
      not_returns_reserve_zero
    unfold reserve
    rw [if_pos rfl]
    refine Act.makes_bind_silent (Act.makes_throw _ w) fun _ v hFail => ?_
    exact absurd hFail Act.not_returns_throw
  · rw [reserve_of_ne_zero network account hSize]
    refine Act.makes_bind_last (Act.makes_ask _ _ hOpen) fun pending v _ => ?_
    refine Act.makes_bind_silent (Act.makes_get v) fun u v _ => ?_
    split
    · exact Act.makes_bind_silent (Act.makes_notice _ v) fun _ v _ => makes_handOut _ _ v
    · exact makes_handOut _ _ v

/-- The range that is reserved holds as many nonces as were asked for, and there are some. -/
theorem returns_reserve {network : Network σ} {account : Address} {size : Word64}
    {w w' : World σ} {r : NonceRange} (h : (reserve network account size).Returns w r w') :
    size ≠ 0 ∧ r.size = size.toNat := by
  by_cases hSize : size = 0
  · subst hSize
    exact absurd h not_returns_reserve_zero
  · rw [reserve_of_ne_zero network account hSize] at h
    obtain ⟨pending, _, _, h⟩ := Act.returns_bind.mp h
    obtain ⟨u, v, _, h⟩ := Act.returns_bind.mp h
    have hRange : r.first = pending ∧ r.stop.toNat = pending.toNat + size.toNat := by
      split at h
      · obtain ⟨_, _, _, h⟩ := Act.returns_bind.mp h
        exact returns_handOut h
      · exact returns_handOut h
    refine ⟨hSize, ?_⟩
    unfold NonceRange.size
    rw [hRange.2, hRange.1]
    omega

end NonceRange

namespace Batch

/-- The calls by which a batch is prepared. -/
def preparationCalls (account : Account) (terms : TransferTerms) : List Call :=
  feeCalls (Pricing.probe account.address terms.recipient terms.amount)
    ++ [.pendingCount account.address]

theorem forall₂_of_mapM_eq_ok {ε α β : Type} {f : α → Except ε β} {l : List α} {l' : List β}
    (h : l.mapM f = .ok l') : List.Forall₂ (fun a b => f a = .ok b) l l' := by
  induction l generalizing l' with
  | nil =>
    rw [List.mapM_nil] at h
    cases h
    exact .nil
  | cons a l ih =>
    rw [List.mapM_cons] at h
    cases ha : f a with
    | error e =>
      rw [ha] at h
      cases h
    | ok b =>
      rw [ha] at h
      cases hl : l.mapM f with
      | error e =>
        rw [hl] at h
        cases h
      | ok bs =>
        rw [hl] at h
        cases h
        exact .cons ha (ih hl)

theorem exists_of_mapM_eq_error {ε γ δ : Type} {f : γ → Except ε δ} {l : List γ} {e : ε}
    (h : l.mapM f = .error e) : ∃ a ∈ l, f a = .error e := by
  induction l with
  | nil =>
    rw [List.mapM_nil] at h
    cases h
  | cons a l ih =>
    rw [List.mapM_cons] at h
    cases ha : f a with
    | error e' =>
      rw [ha] at h
      cases h
      exact ⟨a, List.mem_cons_self, ha⟩
    | ok b =>
      rw [ha] at h
      cases hl : l.mapM f with
      | error e' =>
        rw [hl] at h
        cases h
        obtain ⟨c, hMem, hc⟩ := ih hl
        exact ⟨c, List.mem_cons_of_mem _ hMem, hc⟩
      | ok bs =>
        rw [hl] at h
        cases h

theorem forall₂_of_sign_eq_ok {account : Account} {terms : TransferTerms} {pricing : Pricing}
    {nonces : List Word64} {transfers : List SignedTransfer}
    (h : sign account terms pricing nonces = .ok transfers) :
    List.Forall₂ (fun nonce transfer =>
      account.sign (request account.address terms pricing nonce) = .ok transfer)
      nonces transfers := forall₂_of_mapM_eq_ok h

theorem toNat_setWidth_nonce (nonce : Word64) : (nonce.setWidth 256).toNat = nonce.toNat := by
  have hNonce := nonce.isLt
  rw [BitVec.toNat_setWidth, Nat.mod_eq_of_lt (by omega)]

/-- To sign the request for a nonce fails only where the chain's id leaves no room for the
parity. -/
theorem sign_request (account : Account) (sender : Address) (terms : TransferTerms)
    (pricing : Pricing) (nonce : Word64) :
    ∃ signature, account.sign (request sender terms pricing nonce) =
      match chainBoundParity signature terms.chainId with
      | .ok _ => .ok ⟨nonce, keccak256
          (signedPayload (request sender terms pricing nonce).fields signature),
          signedPayload (request sender terms pricing nonce).fields signature,
          request sender terms pricing nonce⟩
      | .error f => .error (.fault f) := by
  have hNarrow : Word256.narrow (nonce.setWidth 256) = .ok nonce :=
    fit_eq_ok_iff.mpr (toNat_setWidth_nonce nonce).symm
  refine ⟨account.key.sign (request sender terms pricing nonce).fields.signingDigest, ?_⟩
  unfold Account.sign
  show ((Word256.narrow (nonce.setWidth 256)).mapError Stop.fault >>= fun _ => _) = _
  rw [hNarrow]
  show ((chainBoundParity _ terms.chainId).mapError Stop.fault >>= fun _ => _) = _
  cases chainBoundParity _ terms.chainId <;> rfl

/-- The transfer that is signed for a nonce has that nonce, and its payload says so. -/
theorem signed_of_sign_eq_ok {account : Account} {sender : Address} {terms : TransferTerms}
    {pricing : Pricing} {nonce : Word64} {transfer : SignedTransfer}
    (h : account.sign (request sender terms pricing nonce) = .ok transfer) :
    transfer.nonce = nonce ∧ ∃ signature, transfer.payload =
      signedPayload (request sender terms pricing nonce).fields signature := by
  obtain ⟨⟨wide, hSome, hNonce⟩, _, hPayload, _⟩ := Account.sign_eq_ok_iff.mp h
  cases hSome
  exact ⟨BitVec.eq_of_toNat_eq (hNonce.trans (toNat_setWidth_nonce nonce)), _, hPayload⟩

/-- Signing a transfer of a batch may end with a fault, but never fails otherwise. -/
theorem fault_of_sign_eq_error {account : Account} {sender : Address} {terms : TransferTerms}
    {pricing : Pricing} {nonce : Word64} {s : Stop}
    (h : account.sign (request sender terms pricing nonce) = .error s) : ∃ f, s = .fault f := by
  obtain ⟨signature, hSign⟩ := sign_request account sender terms pricing nonce
  rw [hSign] at h
  split at h <;> cases h
  exact ⟨_, rfl⟩

/-- Where the chain's id leaves room for the parity, signing succeeds. -/
theorem exists_sign_eq_ok (account : Account) (sender : Address) {terms : TransferTerms}
    (hRoom : terms.chainId.toNat * 2 + 36 < 2 ^ 64) (pricing : Pricing) (nonce : Word64) :
    ∃ transfer, account.sign (request sender terms pricing nonce) = .ok transfer := by
  obtain ⟨signature, hSign⟩ := sign_request account sender terms pricing nonce
  obtain ⟨parity, hParity⟩ := exists_chainBoundParity signature terms.chainId (by omega)
  rw [hSign, hParity]
  exact ⟨_, rfl⟩

theorem exists_signed (account : Account) {terms : TransferTerms}
    (hRoom : terms.chainId.toNat * 2 + 36 < 2 ^ 64) (pricing : Pricing) (nonces : List Word64) :
    ∃ transfers, sign account terms pricing nonces = .ok transfers := by
  unfold sign
  induction nonces with
  | nil => exact ⟨[], rfl⟩
  | cons nonce nonces ih =>
    obtain ⟨transfer, hFirst⟩ := exists_sign_eq_ok account account.address hRoom pricing nonce
    obtain ⟨transfers, hRest⟩ := ih
    dsimp only at hRest ⊢
    rw [List.mapM_cons, hFirst, hRest]
    exact ⟨transfer :: transfers, rfl⟩

/-- The rest of the preparation of a batch once its price is known. -/
def priced (network : Network σ) (account : Account) (terms : TransferTerms) (size : Word64)
    (pricing : Pricing) : Act σ Batch := do
  let nonces ← NonceRange.reserve network account.address size
  let transfers ← Act.ofExcept (sign account terms pricing nonces.toList)
  Act.notice (.batchBuilt transfers.length (transfers.head?.map SignedTransfer.nonce))
  return ⟨pricing, transfers⟩

theorem prepare_eq (network : Network σ) (account : Account) (terms : TransferTerms)
    (size : Word64) : prepare network account terms size =
      Pricing.obtain network account.address terms.recipient terms.amount >>=
        priced network account terms size := rfl

/-- A preparation whose reads go well, for a chain whose id leaves room for the parity. -/
theorem exists_returns_prepare {network : Network σ} {account : Account} {terms : TransferTerms}
    {size : Word64} {w v u : World σ} {pricing : Pricing} {range : NonceRange}
    (hPricing : (Pricing.obtain network account.address terms.recipient terms.amount).Returns w
      pricing v)
    (hRange : (NonceRange.reserve network account.address size).Returns v range u)
    (hRoom : terms.chainId.toNat * 2 + 36 < 2 ^ 64) :
    ∃ batch w', (prepare network account terms size).Returns w batch w' := by
  obtain ⟨transfers, hSigned⟩ := exists_signed account hRoom pricing range.toList
  have hBuilt : (Act.ofExcept (sign account terms pricing range.toList)).Returns u transfers u :=
    Act.returns_ofExcept.mpr ⟨hSigned, rfl⟩
  refine ⟨⟨pricing, transfers⟩, { u with
    notices := u.notices ++
      [.batchBuilt transfers.length (transfers.head?.map SignedTransfer.nonce)] }, ?_⟩
  refine Act.returns_bind.mpr ⟨pricing, v, hPricing, Act.returns_bind.mpr ⟨range, u, hRange, ?_⟩⟩
  exact Act.returns_bind.mpr ⟨transfers, u, hBuilt, rfl⟩

theorem makes_priced (network : Network σ) (account : Account) (terms : TransferTerms)
    (size : Word64) (pricing : Pricing) {w : World σ} (hOpen : w.cutOff = none) :
    (priced network account terms size pricing).Makes w [.pendingCount account.address] := by
  refine Act.makes_bind_last (NonceRange.makes_reserve network _ size hOpen) fun nonces u _ => ?_
  refine Act.makes_bind_silent (Act.makes_ofExcept _ u) fun transfers u _ => ?_
  exact Act.makes_bind_silent (Act.makes_notice _ u) fun _ u _ => Act.makes_pure _ u

theorem makes_prepare (network : Network σ) (account : Account) (terms : TransferTerms)
    (size : Word64) {w : World σ} (hOpen : w.cutOff = none) :
    (prepare network account terms size).Makes w (preparationCalls account terms) := by
  have hObtain := Pricing.makes_obtain network account.address terms.recipient terms.amount hOpen
  exact Act.makes_bind hObtain fun pricing v hPricing =>
    makes_priced network account terms size pricing (hObtain.all_open hOpen hPricing)

/-- The stages that a preparation has gone through when it returns. -/
theorem stages_of_returns {network : Network σ} {account : Account} {terms : TransferTerms}
    {size : Word64} {w w' : World σ} {batch : Batch}
    (h : (prepare network account terms size).Returns w batch w') :
    ∃ v range u,
      (Pricing.obtain network account.address terms.recipient terms.amount).Returns w
        batch.pricing v ∧
      (NonceRange.reserve network account.address size).Returns v range u ∧
      sign account terms batch.pricing range.toList = .ok batch.transfers ∧
      w' = { u with
        notices := u.notices ++
          [.batchBuilt batch.size (batch.transfers.head?.map SignedTransfer.nonce)] } := by
  obtain ⟨pricing, v, hObtain, h⟩ := Act.returns_bind.mp h
  obtain ⟨range, _, hReserve, h⟩ := Act.returns_bind.mp h
  obtain ⟨transfers, u, hSign, h⟩ := Act.returns_bind.mp h
  obtain ⟨_, _, hBuilt, h⟩ := Act.returns_bind.mp h
  obtain ⟨hSigned, rfl⟩ := Act.returns_ofExcept.mp hSign
  obtain rfl := Act.returns_notice.mp hBuilt
  obtain ⟨rfl, rfl⟩ := Act.returns_pure.mp h
  exact ⟨v, range, u, hObtain, hReserve, hSigned, rfl⟩

/-- A batch that is prepared is complete. -/
theorem returns_prepare {network : Network σ} {account : Account} {terms : TransferTerms}
    {size : Word64} {w w' : World σ} {batch : Batch}
    (h : (prepare network account terms size).Returns w batch w') :
    size ≠ 0 ∧ batch.size = size.toNat := by
  obtain ⟨_, range, _, _, hReserve, hSigned, _⟩ := stages_of_returns h
  obtain ⟨hSize, hLength⟩ := NonceRange.returns_reserve hReserve
  have hCount := (forall₂_of_sign_eq_ok hSigned).length_eq
  rw [range.length_toList] at hCount
  exact ⟨hSize, hCount.symm.trans hLength⟩

end Batch

end TxLoad

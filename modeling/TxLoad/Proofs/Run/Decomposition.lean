import Mathlib.Data.List.Nodup
import TxLoad.Proofs.Run.Legs
import TxLoad.Proofs.Run.Reservation

/-! # What a run comes to

A run completes or breaks. A run that completes has sent batches of the planned sizes, has counted
every transfer once, and has made four reads for each batch and one submission for each transfer. A
run that breaks ends with what stopped the preparation of one batch; it has submitted the batches
before that one in full, and makes no call afterwards.
-/

namespace TxLoad

variable {σ : Type}

/-! ## Counting calls -/

def Call.isSubmission : Call → Bool
  | .submit _ => true
  | _ => false

theorem countP_isSubmission_submissionCalls (transfers : List SignedTransfer) :
    (submissionCalls transfers).countP Call.isSubmission = transfers.length := by
  induction transfers with
  | nil => rfl
  | cons transfer rest ih =>
    show List.countP Call.isSubmission (.submit transfer.payload :: submissionCalls rest) = _
    rw [List.countP_cons_of_pos rfl, ih, List.length_cons]

namespace Batch

variable {account : Account} {terms : TransferTerms}

theorem not_isSubmission_of_mem_preparationCalls {call : Call}
    (h : call ∈ preparationCalls account terms) : call.isSubmission = false := by
  unfold preparationCalls feeCalls at h
  simp only [List.cons_append, List.nil_append, List.mem_cons, List.not_mem_nil, or_false] at h
  rcases h with rfl | rfl | rfl | rfl <;> rfl

theorem countP_isSubmission_of_prefix {calls : List Call}
    (h : calls <+: preparationCalls account terms) : calls.countP Call.isSubmission = 0 := by
  refine List.countP_eq_zero.mpr fun call hCall => ?_
  rw [not_isSubmission_of_mem_preparationCalls (h.subset hCall)]
  exact Bool.false_ne_true

theorem nodup_preparationCalls : (preparationCalls account terms).Nodup := by
  simp [preparationCalls, feeCalls]

end Batch

namespace Leg

variable (p : Plan) (chainId : Word64)

theorem countP_isSubmission_calls (legs : List (Leg σ)) :
    (legs.flatMap (calls p chainId)).countP Call.isSubmission = (legs.map size).sum := by
  induction legs with
  | nil => rfl
  | cons leg legs ih =>
    rw [List.flatMap_cons, List.countP_append, ih, List.map_cons, List.sum_cons, calls,
      List.countP_append, Batch.countP_isSubmission_of_prefix List.prefix_rfl,
      countP_isSubmission_submissionCalls, Nat.zero_add]
    rfl

theorem count_read_calls {read : Call}
    (hRead : read ∈ Batch.preparationCalls p.account (p.terms chainId)) (legs : List (Leg σ)) :
    (legs.flatMap (calls p chainId)).count read = legs.length := by
  induction legs with
  | nil => rfl
  | cons leg legs ih =>
    have hOnce := List.count_eq_one_of_mem Batch.nodup_preparationCalls hRead
    have hNever : (submissionCalls leg.batch.transfers).count read = 0 := by
      refine List.count_eq_zero.mpr fun hMem => ?_
      obtain ⟨_, _, rfl⟩ := List.mem_map.mp hMem
      exact Bool.noConfusion (Batch.not_isSubmission_of_mem_preparationCalls hRead)
    rw [List.flatMap_cons, List.count_append, ih, calls, List.count_append, hOnce, hNever,
      List.length_cons, Nat.add_comm]

theorem length_calls (legs : List (Leg σ)) :
    (legs.flatMap (calls p chainId)).length = 4 * legs.length + (legs.map size).sum := by
  induction legs with
  | nil => rfl
  | cons leg legs ih =>
    have hLeg : (calls p chainId leg).length = 4 + leg.size := by
      unfold calls submissionCalls
      rw [List.length_append, List.length_map]
      rfl
    rw [List.flatMap_cons, List.length_append, ih, hLeg, List.map_cons, List.sum_cons,
      List.length_cons]
    omega

end Leg

/-! ## How a run ends -/

/-- A run that sends all its transfers. -/
structure Plan.Completes (network : Network σ) (p : Plan) (chainId : Word64) (w : World σ)
    (legs : List (Leg σ)) (made : List (Duration × Call)) (w' : World σ) : Prop where
  /-- The legs follow each other, and nothing is left after the last. -/
  course : Legs network p chainId p.count.toNat w legs 0 w'
  sizes : legs.map Leg.size = batchSizes p.count.toNat p.batchSize.toNat
  returns : (p.send network chainId).Returns w (Leg.totals legs) w'
  batches : (Leg.totals legs).batches = batchCount p.count.toNat p.batchSize.toNat
  accounted : (Leg.totals legs).sent + (Leg.totals legs).failed = p.count.toNat
  grows : w.Grows made w'
  calls : made.map Prod.snd = legs.flatMap (Leg.calls p chainId)
  submissions : (made.map Prod.snd).countP Call.isSubmission = p.count.toNat
  reads : ∀ read ∈ Batch.preparationCalls p.account (p.terms chainId),
    (made.map Prod.snd).count read = batchCount p.count.toNat p.batchSize.toNat
  length : made.length = 4 * batchCount p.count.toNat p.batchSize.toNat + p.count.toNat
  /-- One pause less than batches. -/
  pauses : w'.now.nanos = w.now.nanos + (legs.map Leg.span).sum +
    (batchCount p.count.toNat p.batchSize.toNat - 1) * p.pause.nanos

/-- A run that ends with the preparation of one batch, which begins in `v`. -/
structure Plan.Breaks (network : Network σ) (p : Plan) (chainId : Word64) (w : World σ)
    (legs : List (Leg σ)) (made : List (Duration × Call)) (v : World σ)
    (lost : List (Duration × Call)) (s : Stop) (w' : World σ) : Prop where
  /-- The batches before are prepared and settled, each of the full size. -/
  course : Legs network p chainId p.count.toNat w legs
    (p.count.toNat - p.batchSize.toNat * legs.length) v
  early : legs.length < batchCount p.count.toNat p.batchSize.toNat
  sizes : legs.map Leg.size = List.replicate legs.length p.batchSize.toNat
  /-- The run ends as the preparation does, with the same error in the same world. -/
  preparation : (p.preparation network chainId
    (p.count.toNat - p.batchSize.toNat * legs.length)).Stops v s w'
  stops : (p.send network chainId).Stops w s w'
  grows : w.Grows made v
  calls : made.map Prod.snd = legs.flatMap (Leg.calls p chainId)
  grows_last : v.Grows lost w'
  calls_last : lost.map Prod.snd <+: Batch.preparationCalls p.account (p.terms chainId)
  submissions : ((made ++ lost).map Prod.snd).countP Call.isSubmission =
    p.batchSize.toNat * legs.length

namespace Plan

variable {network : Network σ} {p : Plan} {chainId : Word64} {w w' : World σ}
  {legs : List (Leg σ)}

theorem completes_of_legs (hCount : p.count ≠ 0) (hSize : p.batchSize ≠ 0) (hOpen : w.cutOff = none)
    (hLegs : Legs network p chainId p.count.toNat w legs 0 w')
    (hSent : (p.send network chainId).Returns w (Leg.totals legs) w') :
    ∃ made, p.Completes network chainId w legs made w' := by
  have hSome : p.count.toNat ≠ 0 := Word64.toNat_ne_zero hCount
  have hLength := hLegs.length_of_done hSize rfl
  have hSum : (legs.map Leg.size).sum = p.count.toNat := hLegs.sum_sizes
  obtain ⟨made, hMade, hCalls⟩ := hLegs.grows hOpen
  refine ⟨made, ?_⟩
  exact
    { course := hLegs
      sizes := hLegs.sizes_of_done hSize rfl hSome
      returns := hSent
      batches := hLength
      accounted := (hLegs.sum_reports hOpen).trans hSum
      grows := hMade
      calls := hCalls
      submissions := by rw [hCalls, Leg.countP_isSubmission_calls, hSum]
      reads := by
        intro read hRead
        rw [hCalls, Leg.count_read_calls p chainId hRead, hLength]
      length := by
        rw [← List.length_map Prod.snd, hCalls, Leg.length_calls, hLength, hSum]
      pauses := by rw [← hLength, hLegs.now_of_done hSize hOpen rfl] }

theorem breaks_of_legs {left : Nat} {v : World σ} {s : Stop} (hSize : p.batchSize ≠ 0)
    (hOpen : w.cutOff = none) (hLegs : Legs network p chainId p.count.toNat w legs left v)
    (hLeft : left ≠ 0) (hStops : (p.preparation network chainId left).Stops v s w')
    (hSent : (p.send network chainId).Stops w s w') :
    ∃ made lost, p.Breaks network chainId w legs made v lost s w' := by
  have hLength := hLegs.length_of_left hLeft
  have hRest : left = p.count.toNat - p.batchSize.toNat * legs.length := by omega
  have hSum : (legs.map Leg.size).sum = p.batchSize.toNat * legs.length := by
    have hSizes := hLegs.sum_sizes
    omega
  obtain ⟨made, hMade, hCalls⟩ := hLegs.grows hOpen
  have hPreparation := Batch.makes_prepare network p.account (p.terms chainId)
    (BitVec.ofNat 64 (min left p.batchSize.toNat)) (hMade.isOpen hOpen)
  obtain ⟨lost, hLost, hPrefix⟩ := hPreparation.first hStops
  refine ⟨made, lost, ?_⟩
  exact
    { course := hRest ▸ hLegs
      early := hLegs.length_lt_batchCount hSize hLeft
      sizes := hLegs.sizes_of_left hLeft
      preparation := hRest ▸ hStops
      stops := hSent
      grows := hMade
      calls := hCalls
      grows_last := hLost
      calls_last := hPrefix
      submissions := by
        rw [List.map_append, List.countP_append, hCalls, Leg.countP_isSubmission_calls, hSum,
          Batch.countP_isSubmission_of_prefix hPrefix, Nat.add_zero] }

/-- Whatever the endpoints reply, a run completes or breaks. Rejections, timeouts and faults of
submissions break no run. -/
theorem send_completes_or_breaks (network : Network σ) (p : Plan) (chainId : Word64) (w : World σ)
    (hCount : p.count ≠ 0) (hSize : p.batchSize ≠ 0) (hOpen : w.cutOff = none) :
    (∃ legs made w', p.Completes network chainId w legs made w') ∨
      ∃ legs made v lost s w', p.Breaks network chainId w legs made v lost s w' := by
  rcases sendRemaining_legs network p chainId p.count.toNat {} w hSize hOpen with
    ⟨legs, w', hLegs, hSent⟩ | ⟨legs, left, v, s, w', hLegs, hLeft, hStops, hSent⟩
  · rw [Totals.zero_add] at hSent
    obtain ⟨made, hCompletes⟩ := completes_of_legs hCount hSize hOpen hLegs hSent
    exact .inl ⟨legs, made, w', hCompletes⟩
  · obtain ⟨made, lost, hBreaks⟩ := breaks_of_legs hSize hOpen hLegs hLeft hStops hSent
    exact .inr ⟨legs, made, v, lost, s, w', hBreaks⟩

/-- Seven transfers in batches of three. -/
def sevenByThree : Plan where
  account := ⟨.ofNat 1⟩
  recipient := ⟨0⟩
  amount := 1
  endpoints := []
  count := 7
  batchSize := 3
  pause := .ofMillis 100
  slots := []
  beacon := none
  submitLimit := .ofSecs 5
  metricsPort := none

/-- An endpoint that knows of no block. -/
def blockless : Network Unit where
  genesisTime _ s := (.now (.value 0), s)
  chainId s := (.now (.value 1), s)
  fees _ s := (⟨.now (.value 21000), .now (.value none), .now (.value 1)⟩, s)
  pendingCount _ s := (.now (.value 0), s)
  submit _ s := (none, s)
  acknowledge _ s := s

theorem not_returns_preparation_blockless {remaining : Nat} {batch : Batch} {w' : World Unit} :
    ¬ (sevenByThree.preparation blockless 1 remaining).Returns { network := () } batch w' := by
  intro h
  have hStops : (sevenByThree.preparation blockless 1 remaining { network := () }).1 =
      .error (.failure (.pricing .noBaseFee)) := rfl
  rw [show _ = _ from h] at hStops
  cases hStops

end Plan

/-! ### Endpoints that tell the pending count for a while -/

/-- An endpoint whose pending count stays at seven. Its state counts how often it was asked for the
count, and `tells` says when it answers. It acknowledges every payload after 200 milliseconds. -/
def answering (tells : Nat → Bool) : Network Nat where
  genesisTime _ s := (.now (.value 0), s)
  chainId s := (.now (.value 1), s)
  fees _ s := (⟨.now (.value 21000), .now (.value (some 1000)), .now (.value 1)⟩, s)
  pendingCount _ s :=
    (.now (if tells s then .value 7
      else .failure (.call ⟨"eth_getTransactionCount", "limit exceeded"⟩)), s + 1)
  submit _ s := (some ⟨.ofMillis 200, .value ⟨0⟩⟩, s)
  acknowledge _ s := s

section Answering

variable {tells : Nat → Bool} {remaining left : Nat} {w v w' : World Nat} {legs : List (Leg Nat)}

theorem Pricing.obtain_answering (tells : Nat → Bool) (sender recipient : Address)
    (amount : Word256) (hOpen : w.cutOff = none) :
    ∃ pricing v, (obtain (answering tells) sender recipient amount).Returns w pricing v ∧
      v.network = w.network ∧ v.now = w.now ∧ v.cutOff = none := by
  obtain ⟨s, now, cutOff, readings, calls, notices, tally, handedOut⟩ := w
  change cutOff = none at hOpen
  subst hOpen
  exact ⟨_, _, rfl, rfl, rfl, rfl⟩

theorem NonceRange.reserve_answering (account : Address) {size : Word64} (hSize : size ≠ 0)
    (hFits : 7 + size.toNat < 2 ^ 64) (hOpen : w.cutOff = none) (hTold : tells w.network = true) :
    ∃ range v, (reserve (answering tells) account size).Returns w range v ∧
      v.network = w.network + 1 ∧ v.now = w.now := by
  have hRead := Act.ask_apply (.pendingCount account) ((answering tells).pendingCount account) hOpen
  have hAnswer : ((answering tells).pendingCount account w.network).1.answer = .value 7 :=
    if_pos hTold
  rw [hAnswer] at hRead
  obtain ⟨stop, hStop⟩ : ∃ stop, Word64.plus 7 size = .ok stop :=
    ⟨_, if_pos hFits⟩
  have hReserve := reserve_of_read hSize hRead
  rw [handOut_apply, hStop] at hReserve
  exact ⟨_, _, hReserve, rfl, rfl⟩

namespace Plan

/-- A batch is prepared where the pending count is told. -/
theorem exists_preparation_answering (tells : Nat → Bool) (hSome : remaining ≠ 0)
    (hOpen : w.cutOff = none) (hTold : tells w.network = true) :
    ∃ batch w', (sevenByThree.preparation (answering tells) 1 remaining).Returns w batch w' ∧
      w'.network = w.network + 1 ∧ w'.now = w.now := by
  obtain ⟨pricing, v, hPricing, hNetwork, hNow, hv⟩ := Pricing.obtain_answering tells
    sevenByThree.account.address sevenByThree.recipient sevenByThree.amount hOpen
  have hThree : sevenByThree.batchSize.toNat = 3 := rfl
  have hSize : (BitVec.ofNat 64 (min remaining sevenByThree.batchSize.toNat)).toNat =
      min remaining sevenByThree.batchSize.toNat := by
    rw [BitVec.toNat_ofNat, Nat.mod_eq_of_lt (by omega)]
  have hFull : BitVec.ofNat 64 (min remaining sevenByThree.batchSize.toNat) ≠ 0 := by
    intro hZero
    have hNone : min remaining sevenByThree.batchSize.toNat = 0 :=
      hSize.symm.trans (congrArg BitVec.toNat hZero)
    omega
  obtain ⟨range, u, hRange, hAsked, hAfter⟩ := NonceRange.reserve_answering
    sevenByThree.account.address hFull (by omega) hv (hNetwork ▸ hTold)
  obtain ⟨batch, w', hPrepare⟩ : ∃ batch w',
      (sevenByThree.preparation (answering tells) 1 remaining).Returns w batch w' :=
    Batch.exists_returns_prepare hPricing hRange (by decide)
  obtain ⟨_, _, _, hObtain, hReserve, _, rfl⟩ := Batch.stages_of_returns hPrepare
  obtain ⟨_, rfl⟩ := hObtain.unique hPricing
  obtain ⟨_, rfl⟩ := hReserve.unique hRange
  exact ⟨batch, _, hPrepare, hAsked.trans (congrArg (· + 1) hNetwork), hAfter.trans hNow⟩

/-- A batch is prepared only where the pending count is told, for which it asks once. -/
theorem told_of_preparation {batch : Batch} (hOpen : w.cutOff = none)
    (h : (sevenByThree.preparation (answering tells) 1 remaining).Returns w batch w') :
    tells w.network = true ∧ w'.network = w.network + 1 ∧ w'.now = w.now := by
  have hTold : tells w.network = true := by
    obtain ⟨v, range, u, hObtain, hReserve, _, _⟩ := Batch.stages_of_returns h
    obtain ⟨_, _, hPricing, hNetwork, _, _⟩ := Pricing.obtain_answering tells
      sevenByThree.account.address sevenByThree.recipient sevenByThree.amount hOpen
    obtain ⟨_, rfl⟩ := hObtain.unique hPricing
    have hReserves := NonceRange.reserves_reserve (answering tells) sevenByThree.account.address
      (BitVec.ofNat 64 (min remaining sevenByThree.batchSize.toNat)) v
    rw [show _ = (Except.ok range, u) from hReserve] at hReserves
    cases hReserves with
    | reserved _ hPending _ _ _ =>
      rw [← hNetwork]
      by_contra hUntold
      rw [show ((answering tells).pendingCount _ v.network).1.answer = _ from if_neg hUntold]
        at hPending
      cases hPending
  have hSome : remaining ≠ 0 := by
    rintro rfl
    exact (Batch.returns_prepare h).1 rfl
  obtain ⟨_, _, hReturns, hAsked⟩ := exists_preparation_answering tells hSome hOpen hTold
  obtain ⟨_, rfl⟩ := hReturns.unique h
  exact ⟨hTold, hAsked⟩

end Plan

/-- Each leg asks for the pending count once, and is told. -/
theorem Legs.told (h : Legs (answering tells) Plan.sevenByThree 1 remaining w legs left v)
    (hOpen : w.cutOff = none) :
    v.network = w.network + legs.length ∧ ∀ i < legs.length, tells (w.network + i) = true := by
  induction h with
  | nil => exact ⟨rfl, nofun⟩
  | @cons remaining _ batch report start ready finish v legs _ hPrepare hSubmit _ ih =>
    obtain ⟨hTold, hReady, _⟩ := Plan.told_of_preparation hOpen hPrepare
    obtain ⟨_, _, hGrows, _⟩ := Plan.leg_spec hPrepare hSubmit hOpen
    have hFinish := Batch.network_of_submit (fun _ _ => rfl) (fun _ _ => rfl)
      ((Batch.makes_prepare _ _ _ _ hOpen).all_open hOpen hPrepare) hSubmit
    have hRested : (Plan.sevenByThree.rested
        (remaining - Plan.sevenByThree.batchSize.toNat) finish).network = finish.network := by
      unfold Plan.rested
      split <;> rfl
    obtain ⟨hNetwork, hRest⟩ := ih (Plan.rested_open (hGrows.isOpen hOpen))
    rw [hRested, hFinish, hReady] at hNetwork hRest
    refine ⟨by rw [hNetwork, List.length_cons]; omega, fun i hi => ?_⟩
    cases i with
    | zero => exact hTold
    | succ i =>
      have hLater := hRest i (Nat.lt_of_succ_lt_succ hi)
      rwa [Nat.add_assoc, Nat.add_comm 1] at hLater

/-- A run that breaks does so where the pending count is not told. -/
theorem Plan.Breaks.untold {made lost : List (Duration × Call)} {s : Stop}
    (h : sevenByThree.Breaks (answering tells) 1 w legs made v lost s w')
    (hOpen : w.cutOff = none) : tells (w.network + legs.length) = false := by
  obtain ⟨hNetwork, _⟩ := h.course.told hOpen
  have hEarly : legs.length < 3 := h.early
  have hLeft : sevenByThree.count.toNat - sevenByThree.batchSize.toNat * legs.length ≠ 0 := by
    show 7 - 3 * legs.length ≠ 0
    omega
  by_contra hTold
  rw [Bool.not_eq_false, ← hNetwork] at hTold
  obtain ⟨_, _, hReturns, _⟩ :=
    exists_preparation_answering tells hLeft (h.grows.isOpen hOpen) hTold
  exact hReturns.not_stops h.preparation

end Answering

/-- Where the pending count is told whenever it is asked for, all seven transfers are sent, with
twelve reads and seven submissions. Where it is told once, the run breaks after one full batch.
Where no block is known, it breaks before anything is submitted. -/
theorem Plan.sevenByThree_completes_and_breaks :
    (sevenByThree.count ≠ 0 ∧ sevenByThree.batchSize ≠ 0) ∧
      (∃ legs made w', sevenByThree.Completes (answering fun _ => true) 1 { network := 0 } legs
          made w' ∧ legs.map Leg.size = [3, 3, 1] ∧ made.length = 19) ∧
      (∃ leg made v lost s w', sevenByThree.Breaks (answering (· == 0)) 1 { network := 0 } [leg]
          made v lost s w' ∧ leg.size = 3 ∧
          ((made ++ lost).map Prod.snd).countP Call.isSubmission = 3) ∧
      ∃ made v lost s w',
        sevenByThree.Breaks blockless 1 { network := () } [] made v lost s w' := by
  refine ⟨⟨by decide, by decide⟩, ?_, ?_, ?_⟩
  · rcases send_completes_or_breaks (answering fun _ => true) sevenByThree 1 { network := 0 }
      (by decide) (by decide) rfl with ⟨legs, made, w', h⟩ | ⟨legs, made, v, lost, s, w', h⟩
    · exact ⟨legs, made, w', h, h.sizes, h.length⟩
    · cases h.untold rfl
  · rcases send_completes_or_breaks (answering (· == 0)) sevenByThree 1 { network := 0 }
      (by decide) (by decide) rfl with ⟨legs, made, w', h⟩ | ⟨legs, made, v, lost, s, w', h⟩
    · have hLength : legs.length = 3 := h.course.length_of_done (by decide) rfl
      have hSecond := (h.course.told rfl).2 1 (by omega)
      cases hSecond
    · have hFirst : legs.length ≠ 0 := by
        intro hNone
        have hUntold := h.untold rfl
        rw [hNone] at hUntold
        cases hUntold
      have hNoMore : ¬ 1 < legs.length := by
        intro hMore
        cases (h.course.told rfl).2 1 hMore
      have hLength : legs.length = 1 := by omega
      obtain ⟨leg, rfl⟩ := List.length_eq_one_iff.mp hLength
      exact ⟨leg, made, v, lost, s, w', h, List.head_eq_of_cons_eq h.sizes, h.submissions⟩
  · rcases send_completes_or_breaks blockless sevenByThree 1 { network := () } (by decide)
      (by decide) rfl with ⟨legs, made, w', h⟩ | ⟨legs, made, v, lost, s, w', h⟩
    · cases h.course with
      | cons _ hPrepare => exact absurd hPrepare not_returns_preparation_blockless
    · cases h.course with
      | nil => exact ⟨made, _, lost, s, w', h⟩
      | cons _ hPrepare => exact absurd hPrepare not_returns_preparation_blockless

end TxLoad

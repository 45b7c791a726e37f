import TxLoad.Proofs.Run.Decomposition
import TxLoad.Proofs.Run.Reservation

/-! # What a batch does to the nonces of an account

A chain is up to date if its pending count is always the number it began with and the number of
transfers of the run that were counted as sent. On such a chain, a batch takes up the nonces from
the pending count on, and is prepared with a warning exactly if nonces are missing: if some were
handed out that are not pending. Once the batch is settled, those that are missing are the nonces of
its failed transfers.
-/

namespace TxLoad

variable {σ : Type}

/-! ## How far the pending count lags -/

/-- By how much the pending count lags, as a warning tells it. -/
def Notice.lag? : Notice → Option Nat
  | .pendingLags pending expected => some (expected.toNat - pending.toNat)
  | _ => none

/-- The lags that were warned of so far. -/
def World.lags (w : World σ) : List Nat := w.lagWarnings.filterMap Notice.lag?

/-- What is warned of when a number of nonces is missing. -/
def lagsOf (missing : Nat) : List Nat := if missing = 0 then [] else [missing]

theorem filterMap_lagWarningsFor (pending expected : Word64) :
    (lagWarningsFor pending expected).filterMap Notice.lag? =
      lagsOf (expected.toNat - pending.toNat) := by
  unfold lagWarningsFor lagsOf
  by_cases hLess : pending < expected
  · have hLess' : pending.toNat < expected.toNat := hLess
    rw [if_pos hLess, if_neg (by omega)]
    rfl
  · have hLess' : ¬ pending.toNat < expected.toNat := hLess
    rw [if_neg hLess, if_pos (by omega)]
    rfl

/-! ## The ledger -/

/-- The endpoint's pending count is `base` and what it has acknowledged to this run, which nothing
but an acknowledgement changes. -/
structure Network.UpToDate (network : Network σ) (account : Address) (base : Nat)
    (accepted : σ → Nat) : Prop where
  pending : ∀ {s : σ} {count : Word64}, (network.pendingCount account s).1.answer = .value count →
    count.toNat = base + accepted s
  acknowledge : ∀ (payload : Bytes) (s : σ),
    accepted (network.acknowledge payload s) = accepted s + 1
  submit : ∀ (payload : Bytes) (s : σ), accepted (network.submit payload s).2 = accepted s
  fees : ∀ (probe : CallObject) (s : σ), accepted (network.fees probe s).2 = accepted s
  pendingCount : ∀ s : σ, accepted (network.pendingCount account s).2 = accepted s

/-- What the nonces of later batches depend on, and what was warned of. -/
def World.ledger (accepted : σ → Nat) (w : World σ) : (Word64 × List Notice) × Nat :=
  (NonceRange.books w, accepted w.network)

/-- How many of the nonces that were handed out are not pending. -/
def World.missing (base : Nat) (accepted : σ → Nat) (w : World σ) : Nat :=
  w.handedOut.toNat - (base + accepted w.network)

section Ledger

variable {network : Network σ} {account : Address} {base : Nat} {accepted : σ → Nat}
  {w v w' : World σ}

theorem ledger_eq_iff : v.ledger accepted = w.ledger accepted ↔
    v.handedOut = w.handedOut ∧ v.lagWarnings = w.lagWarnings ∧
      accepted v.network = accepted w.network := by
  unfold World.ledger NonceRange.books
  rw [Prod.mk.injEq, Prod.mk.injEq, and_assoc]

theorem missing_of_ledger_eq (h : v.ledger accepted = w.ledger accepted) :
    v.missing base accepted = w.missing base accepted := by
  obtain ⟨hLast, _, hAccepted⟩ := ledger_eq_iff.mp h
  unfold World.missing
  rw [hLast, hAccepted]

theorem lags_of_ledger_eq (h : v.ledger accepted = w.ledger accepted) : v.lags = w.lags :=
  congrArg (List.filterMap Notice.lag?) (ledger_eq_iff.mp h).2.1

/-- A warning about the pending count tells how many nonces are missing. -/
theorem lags_of_warned {pending : Word64} (hPending : pending.toNat = base + accepted w.network)
    (hWarned : v.lagWarnings = w.lagWarnings ++ lagWarningsFor pending w.handedOut) :
    v.lags = w.lags ++ lagsOf (w.missing base accepted) := by
  unfold World.lags World.missing
  rw [hWarned, List.filterMap_append, filterMap_lagWarningsFor, hPending]

/-- Notices of other kinds leave the books as they are. -/
theorem books_of_notices (told : List Notice) (hLast : v.handedOut = w.handedOut)
    (hNotices : v.notices = w.notices ++ told) (hOther : told.filter Notice.isLag = []) :
    NonceRange.books v = NonceRange.books w := by
  unfold NonceRange.books
  rw [hLast, World.lagWarnings_of_notices hNotices, hOther, List.append_nil]

theorem keeps_ledger_notice {n : Notice} (h : n.isLag = false) :
    Act.Keeps (World.ledger accepted) (Act.notice n : Act σ Unit) := by
  refine Act.keeps_modify fun w => congrArg (·, accepted w.network) ?_
  exact books_of_notices _ rfl rfl (List.filter_cons_of_neg (Bool.not_eq_true _ ▸ h))

theorem keeps_ledger_sleep (d : Duration) :
    Act.Keeps (World.ledger accepted) (Act.sleep d : Act σ Unit) :=
  Act.keeps_sleep d fun _ _ => rfl

theorem keeps_ledger_step {α : Type} {f : σ → α × σ}
    (h : ∀ s, accepted (f s).2 = accepted s) :
    Act.Keeps (World.ledger accepted) (Act.step f : Act σ α) :=
  Act.keeps_step fun w => congrArg (NonceRange.books w, ·) (h w.network)

/-! ### The price -/

theorem keeps_ledger_askFees (hUp : network.UpToDate account base accepted) (probe : CallObject) :
    Act.Keeps (World.ledger accepted) (Act.askFees network probe) := by
  refine Act.keeps_bind (keeps_ledger_step (hUp.fees probe)) fun replies => ?_
  refine Act.keeps_bind (Act.keeps_modify fun _ => rfl) fun _ => ?_
  cases replies.firstFault? with
  | none => exact Act.keeps_bind (keeps_ledger_sleep _) fun _ => Act.keeps_pure _
  | some first => exact Act.keeps_bind (keeps_ledger_sleep _) fun _ => Act.keeps_throw _

theorem keeps_ledger_obtain (hUp : network.UpToDate account base accepted)
    (sender recipient : Address) (amount : Word256) :
    Act.Keeps (World.ledger accepted) (Pricing.obtain network sender recipient amount) :=
  Act.keeps_bind (keeps_ledger_askFees hUp _) <| Pricing.keeps_ofAnswers
    (fun _ => keeps_ledger_notice rfl) (fun _ _ => keeps_ledger_notice rfl) fun _ => rfl

/-! ### The nonces -/

theorem keeps_accepted_reserve (hUp : network.UpToDate account base accepted) (size : Word64) :
    Act.Keeps (fun w => accepted w.network) (NonceRange.reserve network account size) :=
  NonceRange.keeps_reserve (fun _ _ => rfl) (fun w => hUp.pendingCount w.network) (fun _ _ => rfl)
    (fun _ _ => rfl) (fun _ _ => rfl) size

/-- A range that is reserved begins with the pending count; what was missing is warned of. -/
theorem reserved_of_returns (hUp : network.UpToDate account base accepted) {size : Word64}
    {range : NonceRange}
    (h : (NonceRange.reserve network account size).Returns w range w') :
    range.first.toNat = base + accepted w.network ∧
      range.stop.toNat = base + accepted w.network + size.toNat ∧ w'.handedOut = range.stop ∧
      w'.lagWarnings = w.lagWarnings ++ lagWarningsFor range.first w.handedOut ∧
      accepted w'.network = accepted w.network := by
  have hReserves := NonceRange.reserves_reserve network account size w
  rw [show _ = (Except.ok range, w') from h] at hReserves
  cases hReserves with
  | reserved _ hPending hStop hLast hWarned =>
    have hFirst := hUp.pending hPending
    exact ⟨hFirst, by rw [hStop, hFirst], hLast, hWarned,
      (keeps_accepted_reserve hUp size).of_returns h⟩

/-- Whatever comes of a call for nonces, it warns of nothing or of what was missing. -/
theorem lags_reserve (hUp : network.UpToDate account base accepted) {size : Word64}
    {result : Except Stop NonceRange}
    (h : NonceRange.reserve network account size w = (result, w')) :
    w'.lags = w.lags ∨ w'.lags = w.lags ++ lagsOf (w.missing base accepted) := by
  have hReserves := NonceRange.reserves_reserve network account size w
  rw [h] at hReserves
  cases hReserves with
  | unread hBooks => exact .inl (congrArg (List.filterMap Notice.lag?) (congrArg Prod.snd hBooks))
  | overflowed hPending _ _ hWarned => exact .inr (lags_of_warned (hUp.pending hPending) hWarned)
  | reserved _ hPending _ _ hWarned => exact .inr (lags_of_warned (hUp.pending hPending) hWarned)

/-! ### The batch -/

/-- The nonces of a batch. -/
def Batch.nonces (batch : Batch) : List Nat := batch.transfers.map fun t => t.nonce.toNat

/-- The payload of each transfer of a batch is signed and says the transfer's nonce. -/
def Batch.Signed (batch : Batch) : Prop :=
  ∀ transfer ∈ batch.transfers, ∃ fields signature,
    transfer.payload = signedPayload fields signature ∧ fields.nonce.toNat = transfer.nonce.toNat

theorem nonces_of_signed {account : Account} {terms : TransferTerms} {pricing : Pricing}
    {nonces : List Word64} {transfers : List SignedTransfer}
    (h : List.Forall₂ (fun nonce transfer =>
      account.sign (Batch.request account.address terms pricing nonce) = .ok transfer)
      nonces transfers) :
    Batch.nonces ⟨pricing, transfers⟩ = nonces.map BitVec.toNat ∧
      Batch.Signed ⟨pricing, transfers⟩ := by
  induction h with
  | nil => exact ⟨rfl, by simp [Batch.Signed]⟩
  | @cons nonce transfer nonces transfers hSign _ ih =>
    obtain ⟨rfl, signature, hPayload⟩ := Batch.signed_of_sign_eq_ok hSign
    refine ⟨congrArg (transfer.nonce.toNat :: ·) ih.1, fun other hOther => ?_⟩
    rcases List.mem_cons.mp hOther with rfl | hOther
    · exact ⟨_, signature, hPayload, Batch.toNat_setWidth_nonce _⟩
    · exact ih.2 other hOther

/-- A batch that is prepared has the nonces from the pending count on, and what was missing is
warned of. -/
theorem prepared_of_returns {account : Account} {terms : TransferTerms} {size : Word64}
    {batch : Batch} (hUp : network.UpToDate account.address base accepted)
    (h : (Batch.prepare network account terms size).Returns w batch w') :
    batch.nonces = (List.range size.toNat).map (base + accepted w.network + ·) ∧ batch.Signed ∧
      w'.handedOut.toNat = base + accepted w.network + size.toNat ∧
      w'.lags = w.lags ++ lagsOf (w.missing base accepted) ∧
      accepted w'.network = accepted w.network := by
  obtain ⟨v, range, u, hObtain, hReserve, hSigned, hWorld⟩ := Batch.stages_of_returns h
  have hPriced := (keeps_ledger_obtain hUp _ _ _).of_returns hObtain
  have hBuilt : w'.ledger accepted = u.ledger accepted := by
    rw [hWorld]
    exact keeps_ledger_notice rfl u
  obtain ⟨hFirst, hStop, hLast, hWarned, hAccepted⟩ := reserved_of_returns hUp hReserve
  obtain ⟨_, _, hBefore⟩ := ledger_eq_iff.mp hPriced
  obtain ⟨hAfterLast, _, hAfter⟩ := ledger_eq_iff.mp hBuilt
  obtain ⟨hNonces, hPayloads⟩ := nonces_of_signed (Batch.forall₂_of_sign_eq_ok hSigned)
  have hSize : range.size = size.toNat := by
    unfold NonceRange.size
    omega
  refine ⟨?_, hPayloads, ?_, ?_, ?_⟩
  · rw [hNonces, NonceRange.map_toNat_toList, hFirst, hSize, hBefore]
  · rw [hAfterLast, hLast, hStop, hBefore]
  · rw [lags_of_ledger_eq hBuilt, lags_of_warned hFirst hWarned, lags_of_ledger_eq hPriced,
      missing_of_ledger_eq hPriced]
  · rw [hAfter, hAccepted, hBefore]

/-- A preparation that stops warns of nothing or of what was missing. -/
theorem lags_of_prepare_stops {account : Account} {terms : TransferTerms} {size : Word64} {s : Stop}
    (hUp : network.UpToDate account.address base accepted)
    (h : (Batch.prepare network account terms size).Stops w s w') :
    w'.lags = w.lags ∨ w'.lags = w.lags ++ lagsOf (w.missing base accepted) := by
  have hObtainKeeps := keeps_ledger_obtain hUp account.address terms.recipient terms.amount
  rcases Act.stops_bind.mp h with hObtain | ⟨pricing, v, hObtain, h⟩
  · exact .inl (lags_of_ledger_eq (hObtainKeeps.of_stops hObtain))
  have hPriced := hObtainKeeps.of_returns hObtain
  rw [← lags_of_ledger_eq hPriced, ← missing_of_ledger_eq hPriced]
  rcases Act.stops_bind.mp h with hReserve | ⟨range, u, hReserve, h⟩
  · exact lags_reserve hUp hReserve
  rcases Act.stops_bind.mp h with hSign | ⟨transfers, t, hSign, h⟩
  · obtain ⟨_, rfl⟩ := Act.stops_ofExcept.mp hSign
    exact lags_reserve hUp hReserve
  · rcases Act.stops_bind.mp h with hNotice | ⟨_, _, _, hPure⟩
    · exact absurd hNotice Act.not_stops_notice
    · exact absurd hPure Act.not_stops_pure

/-! ### The submission -/

theorem books_noted (outcome : SignedTransfer × Except Rejection Hash) :
    NonceRange.books (Submission.noted network w outcome) = NonceRange.books w := by
  obtain ⟨transfer, rejection | hash⟩ := outcome
  · exact books_of_notices [.rejected transfer.nonce rejection] rfl rfl rfl
  · have hTold : (Submission.noted network w (transfer, .ok hash)).notices =
        w.notices ++ (Submission.hashNotices transfer hash ++ [.sent transfer.nonce hash]) :=
      List.append_assoc _ _ _
    refine books_of_notices _ rfl hTold ?_
    unfold Submission.hashNotices
    split <;> rfl

/-- Taking note of the outcomes tells the endpoint of those that it has acknowledged. -/
theorem ledger_foldl_noted (hUp : network.UpToDate account base accepted)
    (outcomes : List (SignedTransfer × Except Rejection Hash)) :
    NonceRange.books (outcomes.foldl (Submission.noted network) w) = NonceRange.books w ∧
      accepted (outcomes.foldl (Submission.noted network) w).network =
        accepted w.network + (outcomes.map fun (transfer, outcome) =>
          (⟨transfer.nonce, outcome⟩ : SubmissionResult)).countP SubmissionResult.isSent := by
  induction outcomes generalizing w with
  | nil => exact ⟨rfl, rfl⟩
  | cons outcome rest ih =>
    obtain ⟨hBooks, hAccepted⟩ := ih (w := Submission.noted network w outcome)
    rw [List.foldl_cons, hBooks, hAccepted, books_noted]
    refine ⟨rfl, ?_⟩
    obtain ⟨transfer, _ | hash⟩ := outcome
    · exact congrArg (accepted w.network + ·) (List.countP_cons_of_neg Bool.false_ne_true).symm
    · rw [show accepted (Submission.noted network w (transfer, .ok hash)).network = _ from
        hUp.acknowledge transfer.payload w.network, List.map_cons, List.countP_cons_of_pos rfl]
      omega

theorem books_concluded (report : BatchReport) (w : World σ) :
    NonceRange.books (Batch.concluded report w) = NonceRange.books w :=
  books_of_notices [.batchDone report.sent report.failed] rfl rfl rfl

/-- A submission adds what was sent to what is accepted. -/
theorem ledger_of_submit (hUp : network.UpToDate account base accepted) {limit : Duration}
    {batch : Batch} {report : BatchReport} (hOpen : w.cutOff = none)
    (h : (batch.submit network limit).Returns w report w') :
    NonceRange.books w' = NonceRange.books w ∧
      accepted w'.network = accepted w.network + report.sent := by
  by_cases hSome : batch.transfers = []
  · unfold Batch.submit at h
    rw [hSome] at h
    obtain ⟨rfl, rfl⟩ := Act.returns_pure.mp h
    exact ⟨rfl, rfl⟩
  · have hApply := batch.submit_apply network limit hSome hOpen
    obtain ⟨rfl, rfl⟩ := (Act.returns_of_eq hApply).mp h
    have hNoted := ledger_foldl_noted hUp (batch.outcomes network limit w.network)
      (w := (batch.handedIn network w).later (batch.reportOf network limit w.network).elapsed)
    obtain ⟨hBooks, hAccepted⟩ := hNoted
    have hHanded : accepted (batch.handedIn network w).network = accepted w.network :=
      Submission.view_repliesTo accepted hUp.submit batch.transfers w.network
    have hSubmitted : NonceRange.books (batch.handedIn network w) = NonceRange.books w :=
      books_of_notices [.batchSubmitted batch.size batch.pricing] rfl rfl rfl
    refine ⟨(books_concluded _ _).trans (hBooks.trans hSubmitted), ?_⟩
    rw [← hHanded]
    exact hAccepted

end Ledger

/-! ### The leg -/

/-- By how much the pending count lagged when the batch was prepared, if that was warned of. -/
def Leg.lags (leg : Leg σ) : List Nat := leg.ready.lags.drop leg.start.lags.length

/-- The submissions so far. -/
def World.submitted (w : World σ) : List Call := (w.calls.map Prod.snd).filter Call.isSubmission

/-- The batch takes up the nonces from the pending count on, with a warning of what is missing, and
leaves those missing whose transfers failed. -/
structure Leg.Booked (base : Nat) (accepted : σ → Nat) (leg : Leg σ) : Prop where
  nonces : leg.batch.nonces = (List.range leg.size).map (base + accepted leg.start.network + ·)
  signed : leg.batch.Signed
  warned : leg.lags = lagsOf (leg.start.missing base accepted)
  lags_finish : leg.finish.lags = leg.start.lags ++ leg.lags
  accepted_finish : accepted leg.finish.network = accepted leg.start.network + leg.report.sent
  missing_finish : leg.finish.missing base accepted = leg.report.failed
  accounted : leg.report.sent + leg.report.failed = leg.size
  submitted_finish : leg.finish.submitted =
    leg.start.submitted ++ submissionCalls leg.batch.transfers

theorem World.Grows.submitted {w w' : World σ} {made : List (Duration × Call)}
    (h : w.Grows made w') :
    w'.submitted = w.submitted ++ (made.map Prod.snd).filter Call.isSubmission := by
  unfold World.submitted
  rw [h.calls_eq, List.map_append, List.filter_append]

theorem filter_isSubmission_of_prefix {account : Account} {terms : TransferTerms}
    {calls : List Call} (h : calls <+: Batch.preparationCalls account terms) :
    calls.filter Call.isSubmission = [] := by
  refine List.filter_eq_nil_iff.mpr fun call hCall => ?_
  rw [Batch.not_isSubmission_of_mem_preparationCalls (h.subset hCall)]
  exact Bool.false_ne_true

theorem filter_isSubmission_submissionCalls (transfers : List SignedTransfer) :
    (submissionCalls transfers).filter Call.isSubmission = submissionCalls transfers := by
  refine List.filter_eq_self.mpr fun call hCall => ?_
  obtain ⟨_, _, rfl⟩ := List.mem_map.mp hCall
  rfl

theorem Plan.makes_preparation (network : Network σ) (p : Plan) (chainId : Word64) (remaining : Nat)
    {w : World σ} (hOpen : w.cutOff = none) : (p.preparation network chainId remaining).Makes w
      (Batch.preparationCalls p.account (p.terms chainId)) :=
  Batch.makes_prepare network p.account (p.terms chainId) _ hOpen

theorem Plan.booked {network : Network σ} {p : Plan} {chainId : Word64} {base : Nat}
    {accepted : σ → Nat} (hUp : network.UpToDate p.account.address base accepted) {remaining : Nat}
    {batch : Batch} {report : BatchReport} {start ready finish : World σ}
    (hPrepare : (p.preparation network chainId remaining).Returns start batch ready)
    (hSubmit : (batch.submit network p.submitLimit).Returns ready report finish)
    (hOpen : start.cutOff = none) :
    (⟨batch, report, start, ready, finish⟩ : Leg σ).Booked base accepted := by
  have hReady := (p.makes_preparation network chainId remaining hOpen).all_open hOpen hPrepare
  obtain ⟨hAccounted, made, hGrows, hCalls⟩ := leg_spec hPrepare hSubmit hOpen
  obtain ⟨hNonces, hSigned, hLast, hLags, hAccepted⟩ := prepared_of_returns hUp hPrepare
  obtain ⟨hBooks, hSent⟩ := ledger_of_submit hUp hReady hSubmit
  have hSize : batch.size = _ := (Batch.returns_prepare hPrepare).2
  have hWarned : Leg.lags ⟨batch, report, start, ready, finish⟩ =
      lagsOf (start.missing base accepted) := by
    unfold Leg.lags
    rw [hLags, List.drop_left]
  have hSettled : finish.lags = ready.lags :=
    congrArg (List.filterMap Notice.lag?) (congrArg Prod.snd hBooks)
  have hHanded : finish.handedOut = ready.handedOut := congrArg Prod.fst hBooks
  exact
    { nonces := by
        rw [Leg.size_mk, hSize]
        exact hNonces
      signed := hSigned
      warned := hWarned
      lags_finish := by rw [hSettled, hWarned, hLags]
      accepted_finish := by rw [hSent, hAccepted]
      missing_finish := by
        unfold World.missing
        rw [hHanded, hLast, hSent, hAccepted, ← hSize]
        show base + accepted start.network + batch.size -
          (base + (accepted start.network + report.sent)) = report.failed
        omega
      accounted := hAccounted
      submitted_finish := by
        rw [hGrows.submitted, hCalls, List.filter_append,
          filter_isSubmission_of_prefix List.prefix_rfl, List.nil_append,
          filter_isSubmission_submissionCalls] }

end TxLoad

import TxLoad.Proofs.Run.Cycles

/-! # What is counted in a run

The tally of a run agrees with what the run did. Every transfer that is submitted is counted once,
as sent or under the kind of its rejection, and every batch once; that holds also for a run that
fails. A gas estimate that fails is counted whatever else becomes of the price it was for.
-/

namespace TxLoad

variable {σ : Type}

/-! ## Kinds of rejections -/

/-- The kind of the rejection, if the transfer was rejected. -/
def SubmissionResult.kind? (r : SubmissionResult) : Option Rejection.Kind :=
  match r.outcome with
  | .ok _ => none
  | .error rejection => some rejection.kind

namespace SubmissionResult

@[simp] theorem isSent_ok (nonce : Word64) (hash : Hash) : isSent ⟨nonce, .ok hash⟩ = true := rfl

@[simp] theorem isSent_error (nonce : Word64) (rejection : Rejection) :
    isSent ⟨nonce, .error rejection⟩ = false := rfl

@[simp] theorem kind?_ok (nonce : Word64) (hash : Hash) : kind? ⟨nonce, .ok hash⟩ = none := rfl

@[simp] theorem kind?_error (nonce : Word64) (rejection : Rejection) :
    kind? ⟨nonce, .error rejection⟩ = some rejection.kind := rfl

/-- A transfer is sent or of the kind of its rejection. -/
theorem countP_isSent_add_length_kinds (results : List SubmissionResult) :
    results.countP isSent + (results.filterMap kind?).length = results.length := by
  induction results with
  | nil => rfl
  | cons r results ih =>
    obtain ⟨nonce, rejection | hash⟩ := r
    · simp [← ih, Nat.add_assoc]
    · simp [List.countP_cons, List.filterMap_cons, ← ih, Nat.add_right_comm]

end SubmissionResult

/-- The kinds of the rejections of a batch. -/
def BatchReport.kinds (r : BatchReport) : List Rejection.Kind :=
  r.results.filterMap SubmissionResult.kind?

theorem BatchReport.length_kinds (r : BatchReport) : r.kinds.length = r.failed := by
  have h := SubmissionResult.countP_isSent_add_length_kinds r.results
  unfold kinds failed sent
  omega

/-- How many transactions were rejected, for whatever reason. -/
def Tally.failures (t : Tally) : Nat := (Rejection.Kind.all.map t.failed).sum

/-- Every rejection is of exactly one of the kinds. -/
theorem Tally.failures_eq_length (t : Tally) : t.failures = t.rejections.length := by
  unfold failures failed
  induction t.rejections with
  | nil => rfl
  | cons kind rejections ih =>
    rw [List.length_cons, ← ih]
    cases kind <;> simp [Rejection.Kind.all, List.count_cons] <;> omega

/-! ## A submission -/

theorem Submission.tally_foldl_noted (network : Network σ)
    (outcomes : List (SignedTransfer × Except Rejection Hash)) (w : World σ) :
    (outcomes.foldl (noted network) w).tally =
      { w.tally with
        sent := w.tally.sent + (outcomes.map fun (transfer, outcome) =>
          (⟨transfer.nonce, outcome⟩ : SubmissionResult)).countP SubmissionResult.isSent
        rejections := w.tally.rejections ++ (outcomes.map fun (transfer, outcome) =>
          (⟨transfer.nonce, outcome⟩ : SubmissionResult)).filterMap SubmissionResult.kind? } := by
  induction outcomes generalizing w with
  | nil => simp
  | cons outcome rest ih =>
    rw [List.foldl_cons, ih]
    obtain ⟨transfer, rejection | hash⟩ := outcome
    · simp [noted, Tally.addRejection]
    · simp [noted, Tally.addSent, List.countP_cons, List.filterMap_cons, Nat.add_assoc,
        Nat.add_comm 1]

/-- A submission counts each transfer once, and the batch. -/
theorem Batch.tally_submit {network : Network σ} {limit : Duration} {batch : Batch} {w w' : World σ}
    {report : BatchReport} (hSome : batch.transfers ≠ []) (hOpen : w.cutOff = none)
    (h : (batch.submit network limit).Returns w report w') :
    w'.tally = { w.tally with
      sent := w.tally.sent + report.sent
      rejections := w.tally.rejections ++ report.kinds
      latencies := w.tally.latencies ++ [report.elapsed.inSeconds] } := by
  obtain ⟨rfl, rfl⟩ :=
    (Act.returns_of_eq (batch.submit_apply network limit hSome hOpen)).mp h
  unfold concluded
  rw [Submission.tally_foldl_noted]
  rfl

/-! ## A preparation -/

def Answer.isFailure {α : Type} : Answer α → Bool
  | .failure _ => true
  | _ => false

/-- The gas estimate of the price that is read in this world fails. -/
def Pricing.estimateFails (network : Network σ) (probe : CallObject) (w : World σ) : Bool :=
  (network.fees probe w.network).1.gas.answer.isFailure

/-- The result is no fault. -/
def Faultless {α : Type} (result : Except Stop α) : Prop := ∀ f, result ≠ .error (.fault f)

/-- A failed estimate is counted, whatever the other answers are. -/
theorem Pricing.tally_ofAnswers
    (answers : Answer Word256 × Answer (Option Word256) × Answer Word256) (w : World σ) :
    (ofAnswers answers w).2.tally =
      if answers.1.isFailure then w.tally.addFallback else w.tally := by
  obtain ⟨estimate, baseFee, priorityFee⟩ := answers
  have hGas : (gasLimitOf estimate w).2.tally =
      if estimate.isFailure then w.tally.addFallback else w.tally := by
    cases estimate with
    | value estimate => exact (Act.keeps_ofFault _ : Act.Keeps World.tally _) w
    | failure f => rfl
    | fault f => rfl
  rw [← hGas]
  exact Act.view_bind (fun gasLimit => keeps_offer (fun _ _ _ => rfl) gasLimit _ _) w

theorem Batch.keeps_tally_priced (network : Network σ) (account : Account) (terms : TransferTerms)
    (size : Word64) (pricing : Pricing) :
    Act.Keeps World.tally (priced network account terms size pricing) := by
  refine Act.keeps_bind ?_ fun nonces => ?_
  · exact NonceRange.keeps_reserve (fun _ _ => rfl) (fun _ => rfl) (fun _ _ => rfl)
      (fun _ _ => rfl) (fun _ _ => rfl) size
  · refine Act.keeps_bind (Act.keeps_ofExcept _) fun transfers => ?_
    exact Act.keeps_bind (fun _ => rfl) fun _ => Act.keeps_pure _

/-- A preparation counts nothing but a failed estimate. That is counted unless one of the reads of
the price ends with a fault. -/
theorem Batch.tally_prepare (network : Network σ) (account : Account) (terms : TransferTerms)
    (size : Word64) {w : World σ} (hOpen : w.cutOff = none) :
    ∃ n, (prepare network account terms size w).2.tally =
        { w.tally with fallbacks := w.tally.fallbacks + n } ∧
      (Faultless (prepare network account terms size w).1 →
        n = (Pricing.estimateFails network
          (Pricing.probe account.address terms.recipient terms.amount) w).toNat) := by
  have hAsked := Act.askFees_apply network
    (Pricing.probe account.address terms.recipient terms.amount) hOpen
  have hTally : (prepare network account terms size w).2.tally =
      (Pricing.obtain network account.address terms.recipient terms.amount w).2.tally :=
    Act.view_bind (keeps_tally_priced network account terms size) w
  rw [hTally, prepare_eq, Act.bind_apply, Pricing.obtain_eq, Act.bind_apply, hAsked]
  unfold FeeReplies.answers
  cases hFault : (network.fees (Pricing.probe account.address terms.recipient terms.amount)
      w.network).1.firstFault? with
  | some first => exact ⟨0, rfl, fun hFaultless => absurd rfl (hFaultless first.2)⟩
  | none =>
    refine ⟨_, ?_, fun _ => rfl⟩
    show (Pricing.ofAnswers _ _).2.tally = _
    rw [Pricing.tally_ofAnswers]
    unfold Pricing.estimateFails
    split <;> rename_i hFails
    · rw [hFails]
      rfl
    · rw [Bool.not_eq_true] at hFails
      rw [hFails]
      rfl

/-! ## Between two worlds -/

/-- What was counted between two worlds: each transfer of the legs in between once, as sent or under
the kind of its rejection, and each leg once. Nothing else was submitted. -/
structure Counts (w : World σ) (legs : List (Leg σ)) (w' : World σ) : Prop where
  sent : w'.tally.sent = w.tally.sent + (Leg.totals legs).sent
  rejections : w'.tally.rejections =
    w.tally.rejections ++ legs.flatMap fun leg => leg.report.kinds
  batches : w'.tally.batches = w.tally.batches + legs.length
  submitted : w'.submitted =
    w.submitted ++ legs.flatMap fun leg => submissionCalls leg.batch.transfers
  complete : ∀ leg ∈ legs, leg.report.results.length = leg.size

/-- What has been counted but for the fallbacks, and what was submitted. -/
def World.score (w : World σ) : Nat × List Rejection.Kind × Nat × List Call :=
  (w.tally.sent, w.tally.rejections, w.tally.batches, w.submitted)

namespace Leg

theorem totals_append (legs more : List (Leg σ)) :
    totals (legs ++ more) = (totals legs).add (totals more) := by
  unfold totals Totals.add
  simp only [List.length_append, List.map_append, List.sum_append]

theorem sum_results (legs : List (Leg σ)) :
    (legs.map fun leg => leg.report.results.length).sum =
      (totals legs).sent + (totals legs).failed := by
  induction legs with
  | nil => rfl
  | cons leg legs ih =>
    rw [List.map_cons, List.sum_cons, ih, totals_cons, ← leg.report.sent_add_failed]
    show leg.report.sent + leg.report.failed + ((totals legs).sent + (totals legs).failed) =
      leg.report.sent + (totals legs).sent + (leg.report.failed + (totals legs).failed)
    omega

theorem length_kinds (legs : List (Leg σ)) :
    (legs.flatMap fun leg => leg.report.kinds).length = (totals legs).failed := by
  rw [List.length_flatMap]
  exact congrArg List.sum (List.map_congr_left fun leg _ => leg.report.length_kinds)

end Leg

namespace Counts

variable {w v w' : World σ} {legs more : List (Leg σ)}

theorem of_score (h : w'.score = w.score) : Counts w [] w' := by
  obtain ⟨hSent, h⟩ := Prod.mk.inj h
  obtain ⟨hRejections, h⟩ := Prod.mk.inj h
  obtain ⟨hBatches, hSubmitted⟩ := Prod.mk.inj h
  exact
    { sent := hSent
      rejections := by rw [hRejections, List.flatMap_nil, List.append_nil]
      batches := hBatches
      submitted := by rw [hSubmitted, List.flatMap_nil, List.append_nil]
      complete := by simp }

theorem trans (h : Counts w legs v) (g : Counts v more w') : Counts w (legs ++ more) w' where
  sent := by
    rw [g.sent, h.sent, Leg.totals_append, Nat.add_assoc]
    rfl
  rejections := by rw [g.rejections, h.rejections, List.flatMap_append, List.append_assoc]
  batches := by rw [g.batches, h.batches, List.length_append, Nat.add_assoc]
  submitted := by rw [g.submitted, h.submitted, List.flatMap_append, List.append_assoc]
  complete := List.forall_mem_append.mpr ⟨h.complete, g.complete⟩

theorem failures (h : Counts w legs w') :
    w'.tally.failures = w.tally.failures + (Leg.totals legs).failed := by
  rw [Tally.failures_eq_length, Tally.failures_eq_length, h.rejections, List.length_append,
    Leg.length_kinds]

/-- As many transfers are counted as are submitted. -/
theorem conserved (h : Counts w legs w') :
    w'.tally.sent + w'.tally.failures + w.submitted.length =
      w.tally.sent + w.tally.failures + w'.submitted.length := by
  have hResults : (legs.map fun leg => leg.report.results.length) = legs.map Leg.size :=
    List.map_congr_left h.complete
  have hSum := Leg.sum_results legs
  rw [hResults] at hSum
  rw [h.sent, h.failures, h.submitted, List.length_append, Leg.length_submissions, hSum]
  omega

/-- Each rejection is counted under its own kind. -/
theorem failed (h : Counts w legs w') (kind : Rejection.Kind) :
    w'.tally.failed kind = w.tally.failed kind +
      (legs.flatMap fun leg => leg.report.results).countP fun r => r.kind? = some kind := by
  have hKinds : (legs.flatMap fun leg => leg.report.kinds) =
      (legs.flatMap fun leg => leg.report.results).filterMap SubmissionResult.kind? :=
    List.filterMap_flatMap.symm
  unfold Tally.failed
  rw [h.rejections, List.count_append, hKinds, List.count_filterMap]
  refine congrArg _ (List.countP_congr fun r _ => ?_)
  simp

end Counts

/-! ## The course of a run -/

section Runs

variable {network : Network σ} {p : Plan} {chainId : Word64} {w v w' : World σ}
  {legs : List (Leg σ)}

/-- What a preparation counts. -/
theorem Plan.counts_preparation (network : Network σ) (p : Plan) (chainId : Word64)
    (remaining : Nat) {w w' : World σ} {result : Except Stop Batch} (hOpen : w.cutOff = none)
    (h : p.preparation network chainId remaining w = (result, w')) :
    Counts w [] w' ∧ (Faultless result → w'.tally.fallbacks =
      w.tally.fallbacks + (Pricing.estimateFails network p.probe w).toNat) := by
  obtain ⟨n, hTally, hFallbacks⟩ := Batch.tally_prepare network p.account (p.terms chainId)
    (BitVec.ofNat 64 (min remaining p.batchSize.toNat)) hOpen
  have hMakes := p.makes_preparation network chainId remaining hOpen
  change (p.preparation network chainId remaining w).2.tally = _ at hTally
  change Faultless (p.preparation network chainId remaining w).1 → _ at hFallbacks
  rw [h] at hTally hFallbacks
  have hSubmitted : w'.submitted = w.submitted := by
    obtain ⟨made, hGrows, hCalls⟩ := hMakes.grows
    rw [h] at hGrows
    rw [hGrows.submitted, filter_isSubmission_of_prefix hCalls, List.append_nil]
  change w'.tally = _ at hTally
  refine ⟨.of_score ?_, fun hFaultless => ?_⟩
  · unfold World.score Tally.batches
    rw [hTally, hSubmitted]
  · rw [hTally, hFallbacks hFaultless]
    rfl

/-- What the submission of a batch counts. -/
theorem Leg.counts_submit {limit : Duration} (leg : Leg σ) (hSome : leg.batch.transfers ≠ [])
    (hOpen : leg.ready.cutOff = none)
    (hSubmit : (leg.batch.submit network limit).Returns leg.ready leg.report leg.finish) :
    Counts leg.ready [leg] leg.finish := by
  have hTally := Batch.tally_submit hSome hOpen hSubmit
  obtain ⟨_, _, hReturns, hLength, hGrows, _⟩ :=
    Batch.returns_submit network limit leg.batch hOpen
  obtain ⟨hReport, hFinish⟩ := hSubmit.unique hReturns
  rw [← hReport] at hLength
  rw [← hFinish] at hGrows
  exact
    { sent := by
        rw [hTally]
        rfl
      rejections := by rw [hTally, List.flatMap_singleton]
      batches := by
        unfold Tally.batches
        rw [hTally, List.length_append]
        rfl
      submitted := by
        rw [hGrows.submitted, List.map_map, List.flatMap_singleton]
        exact congrArg _ ((congrArg _ (List.map_id _)).trans
          (filter_isSubmission_submissionCalls leg.batch.transfers))
      complete := List.forall_mem_singleton.mpr hLength }

/-- What a leg counts. -/
theorem Plan.counts_leg {remaining : Nat} {batch : Batch} {report : BatchReport}
    {start ready finish : World σ}
    (hPrepare : (p.preparation network chainId remaining).Returns start batch ready)
    (hSubmit : (batch.submit network p.submitLimit).Returns ready report finish)
    (hOpen : start.cutOff = none) :
    Counts start [⟨batch, report, start, ready, finish⟩] finish ∧
      finish.tally.fallbacks = start.tally.fallbacks +
        (Pricing.estimateFails network p.probe start).toNat := by
  have hReady := (p.makes_preparation network chainId remaining hOpen).all_open hOpen hPrepare
  obtain ⟨hPrepared, hFallbacks⟩ := p.counts_preparation network chainId remaining hOpen hPrepare
  have hSome : batch.transfers ≠ [] := by
    intro hNone
    obtain ⟨hSize, hLength⟩ := Batch.returns_prepare hPrepare
    rw [Batch.size, hNone] at hLength
    exact hSize (BitVec.eq_of_toNat_eq hLength.symm)
  refine ⟨hPrepared.trans (Leg.counts_submit ⟨batch, report, start, ready, finish⟩ hSome hReady
    hSubmit), ?_⟩
  rw [Batch.tally_submit hSome hReady hSubmit]
  exact hFallbacks fun f hFault => by cases hFault

theorem Legs.counts {remaining left : Nat} (h : Legs network p chainId remaining w legs left w')
    (hOpen : w.cutOff = none) :
    Counts w legs w' ∧ w'.tally.fallbacks = w.tally.fallbacks +
      (legs.map Leg.start).countP (Pricing.estimateFails network p.probe) := by
  induction h with
  | nil => exact ⟨.of_score rfl, rfl⟩
  | @cons remaining _ batch report start ready finish w' legs _ hPrepare hSubmit _ ih =>
    obtain ⟨_, _, hGrows, _⟩ := Plan.leg_spec hPrepare hSubmit hOpen
    obtain ⟨hLeg, hFallback⟩ := Plan.counts_leg hPrepare hSubmit hOpen
    obtain ⟨hRest, hFallbacks⟩ := ih (Plan.rested_open (hGrows.isOpen hOpen))
    have hTally : (p.rested (remaining - p.batchSize.toNat) finish).tally = finish.tally := by
      unfold Plan.rested
      split <;> rfl
    have hPause : Counts finish [] (p.rested (remaining - p.batchSize.toNat) finish) := by
      refine .of_score ?_
      unfold Plan.rested
      split <;> rfl
    refine ⟨hLeg.trans (hPause.trans hRest), ?_⟩
    rw [hFallbacks, hTally, hFallback, List.map_cons, List.countP_cons, Nat.add_assoc,
      Nat.add_comm (Bool.toNat _)]
    cases Pricing.estimateFails network p.probe start <;> rfl

/-- The worlds in which the prices of a run are read: for each leg, and for the batch whose
preparation breaks the run. -/
def Plan.quotes (legs : List (Leg σ)) (v : World σ) : Except Stop Totals → List (World σ)
  | .ok _ => legs.map Leg.start
  | .error _ => legs.map Leg.start ++ [v]

theorem Plan.Ran.counts {result : Except Stop Totals}
    (h : p.Ran network chainId w legs v result w') (hOpen : w.cutOff = none) :
    Counts w legs w' ∧ (Faultless result → w'.tally.fallbacks = w.tally.fallbacks +
      (quotes legs v result).countP (Pricing.estimateFails network p.probe)) := by
  cases h with
  | completed hLegs =>
    obtain ⟨hCounts, hFallbacks⟩ := hLegs.counts hOpen
    exact ⟨hCounts, fun _ => hFallbacks⟩
  | @broken left _ _ s hLegs _ hStops =>
    obtain ⟨hCounts, hFallbacks⟩ := hLegs.counts hOpen
    obtain ⟨hLost, hLast⟩ := p.counts_preparation network chainId left (hLegs.isOpen hOpen) hStops
    refine ⟨legs.append_nil ▸ hCounts.trans hLost, fun hFaultless => ?_⟩
    have hStop : Faultless (.error s : Except Stop Batch) := by
      intro f hFault
      cases hFault
      exact hFaultless f rfl
    rw [hLast hStop, hFallbacks, quotes, List.countP_append, Nat.add_assoc]
    cases hFails : Pricing.estimateFails network p.probe v <;> simp [hFails]

/-! ## The course of the cycles -/

/-- The worlds in which the prices of a cycle are read. -/
def Cycle.quotes (c : Cycle σ) : List (World σ) := Plan.quotes c.legs c.last c.firing.outcome

namespace Timetable

variable {clock : Clock} {genesis : Word64}

/-- A wait counts nothing but itself. -/
theorem counts_wait {target : Target} {wait : Duration} {w read fired : World σ}
    (hWait : (nextWait clock genesis target).Returns w wait read)
    (hAwait : (await target wait).Returns read () fired) :
    Counts w [] fired ∧ fired.tally.fallbacks = w.tally.fallbacks := by
  have hRead : (read.score, read.tally.fallbacks) = (w.score, w.tally.fallbacks) :=
    (keeps_nextWait (fun w => (w.score, w.tally.fallbacks)) (fun _ _ => rfl) clock genesis
      target).of_returns hWait
  have hFired : (fired.score, fired.tally.fallbacks) = (read.score, read.tally.fallbacks) :=
    (keeps_await (fun w => (w.score, w.tally.fallbacks)) (fun _ => rfl) (fun _ => rfl)
      fun _ _ => rfl).of_returns hAwait
  obtain ⟨hScore, hFallbacks⟩ := Prod.mk.inj (hFired.trans hRead)
  exact ⟨.of_score hScore, hFallbacks⟩

/-- A cycle that is waited for counts what its run counts. -/
theorem exists_counts {target : Target} {wait : Duration} {w read fired ended : World σ}
    {outcome : Except Stop Totals} (hOpen : w.cutOff = none)
    (hWait : (nextWait clock genesis target).Returns w wait read)
    (hAwait : (await target wait).Returns read () fired)
    (hCycle : fire (fun _ => p.send network chainId) target fired = (outcome, ended)) :
    ∃ c : Cycle σ, c.firing = ⟨target, w, fired, outcome, ended⟩ ∧ c.IsRun network p chainId ∧
      Counts w c.legs ended ∧ (Faultless outcome → ended.tally.fallbacks = w.tally.fallbacks +
        c.quotes.countP (Pricing.estimateFails network p.probe)) := by
  obtain ⟨hFired, _⟩ := returns_await hAwait (open_read hOpen hWait)
  obtain ⟨hWaited, hBefore⟩ := counts_wait hWait hAwait
  obtain ⟨legs, v, hRan⟩ := p.send_ran network chainId
    (w := Firing.entered ⟨target, w, fired, outcome, ended⟩) hFired hCycle
  obtain ⟨hCounts, hFallbacks⟩ := hRan.counts hFired
  have hEntered : Counts fired [] (Firing.entered ⟨target, w, fired, outcome, ended⟩) :=
    .of_score rfl
  refine ⟨⟨⟨target, w, fired, outcome, ended⟩, legs, v⟩, rfl, ⟨hCycle, hRan⟩,
    hWaited.trans (hEntered.trans hCounts), fun hFaultless => ?_⟩
  rw [hFallbacks hFaultless, ← hBefore]
  rfl

/-- What the cycles count together. -/
theorem Course.counts {targets : List Target} {firings : List (Firing σ Totals)}
    {outcome : Except Stop Unit}
    (h : Course clock (fun _ => p.send network chainId) genesis w targets firings outcome w')
    (hOpen : w.cutOff = none) :
    ∃ cycles : List (Cycle σ), cycles.map Cycle.firing = firings ∧
      (∀ c ∈ cycles, c.IsRun network p chainId) ∧ Counts w (cycles.flatMap Cycle.legs) w' ∧
      (Faultless outcome → w'.tally.fallbacks = w.tally.fallbacks +
        (cycles.flatMap Cycle.quotes).countP (Pricing.estimateFails network p.probe)) := by
  induction h with
  | finished w => exact ⟨[], rfl, by simp, .of_score rfl, fun _ => rfl⟩
  | @unscheduled target _ w w' s hWait =>
    have hRead : (w'.score, w'.tally.fallbacks) = (w.score, w.tally.fallbacks) :=
      (keeps_nextWait (fun w => (w.score, w.tally.fallbacks)) (fun _ _ => rfl) clock
        genesis target).of_stops hWait
    obtain ⟨hScore, hFallbacks⟩ := Prod.mk.inj hRead
    exact ⟨[], rfl, by simp, .of_score hScore, fun _ => hFallbacks⟩
  | cut hWait hAwait => exact absurd hAwait (not_stops_await (open_read hOpen hWait))
  | failed hWait hAwait hCycle =>
    obtain ⟨c, hFiring, hRun, hCounts, hFallbacks⟩ := exists_counts hOpen hWait hAwait hCycle
    refine ⟨[c], congrArg (fun firing => [firing]) hFiring, List.forall_mem_singleton.mpr hRun,
      ?_, fun hFaultless => ?_⟩
    · rw [List.flatMap_singleton]
      exact hCounts
    · rw [List.flatMap_singleton]
      exact hFallbacks fun f hFault => by cases hFault; exact hFaultless f rfl
  | fired hWait hAwait hCycle hRest ih =>
    obtain ⟨hFired, _⟩ := returns_await hAwait (open_read hOpen hWait)
    obtain ⟨c, hFiring, hRun, hCounts, hFallbacks⟩ := exists_counts hOpen hWait hAwait hCycle
    obtain ⟨cycles, rfl, hRuns, hLater, hRestFallbacks⟩ := ih (isOpen_ended hFired hCycle)
    refine ⟨c :: cycles, by rw [List.map_cons, hFiring], List.forall_mem_cons.mpr ⟨hRun, hRuns⟩,
      hCounts.trans hLater, fun hFaultless => ?_⟩
    rw [hRestFallbacks hFaultless, hFallbacks (fun f hFault => by cases hFault),
      List.flatMap_cons, List.countP_append, Nat.add_assoc]

end Timetable

theorem Cycle.foldl_totals (cycles : List (Cycle σ)) (t : Totals) :
    (cycles.map Cycle.totals).foldl Totals.add t =
      t.add (Leg.totals (cycles.flatMap Cycle.legs)) := by
  induction cycles generalizing t with
  | nil => rfl
  | cons c cycles ih =>
    rw [List.map_cons, List.foldl_cons, ih, List.flatMap_cons, Leg.totals_append,
      Totals.add_assoc]
    rfl

/-! ## What it comes to -/

/-- The tally agrees with the legs of a run, with the prices that were read for it, and with its
result. -/
structure Tallied (network : Network σ) (p : Plan) (w : World σ) (legs : List (Leg σ))
    (quotes : List (World σ)) (result : Except Stop Totals) (w' : World σ) : Prop where
  counts : Counts w legs w'
  /-- As many transfers are counted as are submitted. -/
  conserved : w'.tally.sent + w'.tally.failures + w.submitted.length =
    w.tally.sent + w.tally.failures + w'.submitted.length
  /-- Each rejection is counted under its own kind. -/
  failed : ∀ kind, w'.tally.failed kind = w.tally.failed kind +
    (legs.flatMap fun leg => leg.report.results).countP fun r => r.kind? = some kind
  /-- Every failed estimate is counted, whatever became of the price. -/
  fallbacks : Faultless result → w'.tally.fallbacks =
    w.tally.fallbacks + quotes.countP (Pricing.estimateFails network p.probe)
  returned : ∀ totals, result = .ok totals →
    w'.tally.sent = w.tally.sent + totals.sent ∧
      w'.tally.failures = w.tally.failures + totals.failed ∧
      w'.tally.batches = w.tally.batches + totals.batches

theorem Counts.tallied {quotes : List (World σ)} {result : Except Stop Totals}
    (h : Counts w legs w')
    (hFallbacks : Faultless result → w'.tally.fallbacks =
      w.tally.fallbacks + quotes.countP (Pricing.estimateFails network p.probe))
    (hTotals : ∀ totals, result = .ok totals → totals = Leg.totals legs) :
    Tallied network p w legs quotes result w' where
  counts := h
  conserved := h.conserved
  failed := h.failed
  fallbacks := hFallbacks
  returned := by
    intro totals hOk
    obtain rfl := hTotals totals hOk
    exact ⟨h.sent, h.failures, h.batches⟩

end Runs

/-- Whatever comes of a run, and of a run at slots, its tally agrees with what it has done. -/
theorem Plan.runs_tallied (network : Network σ) (p : Plan) (chainId : Word64) {w : World σ}
    (hOpen : w.cutOff = none) :
    (∀ result w', p.send network chainId w = (result, w') →
      ∃ legs v, p.Ran network chainId w legs v result w' ∧
        Tallied network p w legs (quotes legs v result) result w') ∧
    ∀ clock t result w', p.sendAtSlots network clock chainId t w = (result, w') →
      ∃ (cycles : List (Cycle σ)) (u : World σ),
        Timetable.Course clock (fun _ => p.send network chainId) t.genesis w t.remaining
          (cycles.map Cycle.firing) (result.map fun _ => ()) u ∧
        (∀ c ∈ cycles, c.IsRun network p chainId) ∧
        Tallied network p w (cycles.flatMap Cycle.legs) (cycles.flatMap Cycle.quotes) result
          w' := by
  constructor
  · intro result w' hSend
    obtain ⟨legs, v, hRan⟩ := p.send_ran network chainId hOpen hSend
    obtain ⟨hCounts, hFallbacks⟩ := hRan.counts hOpen
    refine ⟨legs, v, hRan, hCounts.tallied hFallbacks ?_⟩
    rintro totals rfl
    exact hRan.of_ok.1
  · intro clock t result w' hSend
    obtain ⟨results, after, u, told, hRun, rfl, rfl, _⟩ := sendAtSlots_cases hSend
    obtain ⟨firings, hCourse, hResults⟩ := Timetable.runFrom_course clock _ t.genesis t.passed
      t.remaining t.phase w hRun
    obtain ⟨cycles, rfl, hRuns, hCounts, hFallbacks⟩ := hCourse.counts hOpen
    have hLater : Counts w (cycles.flatMap Cycle.legs) { u with notices := u.notices ++ told } :=
      List.append_nil (cycles.flatMap Cycle.legs) ▸ hCounts.trans (.of_score rfl)
    cases results with
    | error s =>
      refine ⟨cycles, u, hCourse, hRuns, hLater.tallied (fun hFaultless => ?_)
        fun _ h => by cases h⟩
      exact hFallbacks fun f hFault => by cases hFault; exact hFaultless f rfl
    | ok found =>
      refine ⟨cycles, u, hCourse, hRuns, hLater.tallied (fun _ => ?_) ?_⟩
      · exact hFallbacks fun f hFault => by cases hFault
      · rintro _ ⟨⟩
        rw [← Cycle.totals_eq hRuns (hResults found rfl).2]
        exact (Cycle.foldl_totals cycles {}).trans (Totals.zero_add _)

/-- An endpoint that gives no estimate and knows of no block. -/
def clueless : Network Unit :=
  { Plan.blockless with
    fees := fun _ s => (⟨.now (.failure (.reverted "" none)), .now (.value none),
      .now (.value 1)⟩, s) }

/-- The estimate of the only price is counted there, although the price then fails for the lack of a
base fee. -/
theorem Plan.sevenByThree_counts_fallback :
    ({ network := () } : World Unit).cutOff = none ∧ ∃ result w' legs v,
      sevenByThree.send clueless 1 { network := () } = (result, w') ∧
      result = .error (.failure (.pricing .noBaseFee)) ∧
      Tallied clueless sevenByThree { network := () } legs (quotes legs v result) result w' ∧
      w'.tally.fallbacks = 1 ∧
      (quotes legs v result).countP (Pricing.estimateFails clueless sevenByThree.probe) = 1 := by
  have hCounted : (sevenByThree.send clueless 1 { network := () }).2.tally.fallbacks = 1 := by
    decide +kernel
  have hError : (sevenByThree.send clueless 1 { network := () }).1 =
      .error (.failure (.pricing .noBaseFee)) := by decide +kernel
  rcases hSend : sevenByThree.send clueless 1 { network := () } with ⟨result, w'⟩
  rw [hSend] at hCounted hError
  obtain ⟨legs, v, _, hTallied⟩ := (runs_tallied clueless sevenByThree 1 rfl).1 _ _ hSend
  change result = _ at hError
  have hQuotes := hTallied.fallbacks fun f hFault => by
    rw [hError] at hFault
    cases hFault
  rw [hCounted, Nat.zero_add] at hQuotes
  exact ⟨rfl, result, w', legs, v, rfl, hError, hTallied, hCounted, hQuotes.symm⟩

end TxLoad

import TxLoad.Proofs.Run.Calls
import TxLoad.Run.Submission

/-! # What submitting a batch takes

A submission in an open world never stops, whatever the endpoint replies. It hands in every payload
of the batch once, in the order of the batch and without delay, and its report has a result for each
transfer.
-/

namespace TxLoad

variable {σ : Type}

/-- The calls by which transfers are handed in. -/
def submissionCalls (transfers : List SignedTransfer) : List Call :=
  transfers.map fun transfer => .submit transfer.payload

namespace BatchReport

theorem sent_le_length (r : BatchReport) : r.sent ≤ r.results.length := List.countP_le_length

theorem sent_add_failed (r : BatchReport) : r.sent + r.failed = r.results.length := by
  have h := r.sent_le_length
  unfold failed
  omega

end BatchReport

namespace Submission

/-- The replies to transfers that are handed in one after the other. -/
def repliesTo (network : Network σ) :
    List SignedTransfer → σ → List (Option (Reply Hash)) × σ
  | [], s => ([], s)
  | transfer :: rest, s =>
    let (reply, s) := network.submit transfer.payload s
    let (replies, s) := repliesTo network rest s
    (reply :: replies, s)

theorem length_repliesTo (network : Network σ) (transfers : List SignedTransfer) (s : σ) :
    (repliesTo network transfers s).1.length = transfers.length := by
  induction transfers generalizing s with
  | nil => rfl
  | cons transfer rest ih =>
    unfold repliesTo
    rw [List.length_cons, List.length_cons, ih]

/-- What no payload changes of the endpoints is the same once all are handed in. -/
theorem view_repliesTo {γ : Type} (view : σ → γ) {network : Network σ}
    (hSubmit : ∀ payload s, view (network.submit payload s).2 = view s)
    (transfers : List SignedTransfer) (s : σ) :
    view (repliesTo network transfers s).2 = view s := by
  induction transfers generalizing s with
  | nil => rfl
  | cons transfer rest ih => exact (ih _).trans (hSubmit transfer.payload s)

theorem handIn_apply (network : Network σ) (transfers : List SignedTransfer) (w : World σ) :
    handIn network transfers w =
      (.ok (repliesTo network transfers w.network).1,
        { w with
          network := (repliesTo network transfers w.network).2
          calls := w.calls ++ (submissionCalls transfers).map fun call => (w.now, call) }) := by
  induction transfers generalizing w with
  | nil =>
    have hCalls : w.calls ++ (submissionCalls []).map (fun call => (w.now, call)) = w.calls :=
      List.append_nil _
    rw [hCalls]
    rfl
  | cons transfer rest ih =>
    unfold handIn
    rw [Act.bind_apply]
    show (Act.step (network.submit transfer.payload) >>= fun reply => _) _ = _
    rw [Act.bind_apply]
    show (handIn network rest >>= fun replies => _) _ = _
    rw [Act.bind_apply, ih]
    have hCalls : w.calls ++ [(w.now, .submit transfer.payload)]
          ++ (submissionCalls rest).map (fun call => (w.now, call)) =
        w.calls ++ (submissionCalls (transfer :: rest)).map fun call => (w.now, call) :=
      List.append_assoc _ _ _
    rw [← hCalls]
    rfl

/-- The warning about a hash that is not the transfer's own. -/
def hashNotices (transfer : SignedTransfer) (hash : Hash) : List Notice :=
  if hash ≠ transfer.hash then [.unexpectedHash transfer.nonce transfer.hash hash] else []

/-- The world once note is taken of what became of a transfer. -/
def noted (network : Network σ) (w : World σ) : SignedTransfer × Except Rejection Hash → World σ
  | (transfer, .ok hash) =>
    { w with
      network := network.acknowledge transfer.payload w.network
      notices := w.notices ++ hashNotices transfer hash ++ [.sent transfer.nonce hash]
      tally := w.tally.addSent }
  | (transfer, .error rejection) =>
    { w with
      notices := w.notices ++ [.rejected transfer.nonce rejection]
      tally := w.tally.addRejection rejection.kind }

theorem record_apply (network : Network σ) (transfer : SignedTransfer)
    (outcome : Except Rejection Hash) (w : World σ) :
    record network transfer outcome w = (.ok (), noted network w (transfer, outcome)) := by
  cases outcome with
  | ok hash =>
    by_cases hOwn : hash ≠ transfer.hash
    · simp only [record, noted, hashNotices, if_pos hOwn]
      rfl
    · simp only [record, noted, hashNotices, if_neg hOwn, List.append_nil]
      rfl
  | error rejection => rfl

/-- Taking note of outcomes takes no time and makes no calls. -/
theorem foldl_noted (network : Network σ) (l : List (SignedTransfer × Except Rejection Hash))
    (w : World σ) :
    (l.foldl (noted network) w).cutOff = w.cutOff ∧ (l.foldl (noted network) w).calls = w.calls ∧
      (l.foldl (noted network) w).now = w.now := by
  induction l generalizing w with
  | nil => exact ⟨rfl, rfl, rfl⟩
  | cons a l ih =>
    obtain ⟨hCut, hCalls, hNow⟩ := ih (noted network w a)
    rw [List.foldl_cons, hCut, hCalls, hNow]
    obtain ⟨transfer, _ | _⟩ := a <;> exact ⟨rfl, rfl, rfl⟩

theorem network_foldl_noted {network : Network σ}
    (hAcknowledge : ∀ payload s, network.acknowledge payload s = s)
    (l : List (SignedTransfer × Except Rejection Hash)) (w : World σ) :
    (l.foldl (noted network) w).network = w.network := by
  induction l generalizing w with
  | nil => rfl
  | cons a l ih =>
    rw [List.foldl_cons, ih]
    obtain ⟨transfer, _ | _⟩ := a
    · rfl
    · exact hAcknowledge transfer.payload w.network

end Submission

namespace Batch

open Submission

/-- What becomes of each transfer of a batch that is handed in to endpoints in state `s`. -/
def outcomes (network : Network σ) (limit : Duration) (batch : Batch) (s : σ) :
    List (SignedTransfer × Except Rejection Hash) :=
  batch.transfers.zip ((repliesTo network batch.transfers s).1.map (outcome limit))

/-- The report on a batch that is handed in to endpoints in state `s`. -/
def reportOf (network : Network σ) (limit : Duration) (batch : Batch) (s : σ) : BatchReport where
  results := (batch.outcomes network limit s).map fun (transfer, outcome) =>
    ⟨transfer.nonce, outcome⟩
  elapsed := longest ((repliesTo network batch.transfers s).1.map (waited limit))

/-- The world once a batch is handed in. -/
def handedIn (network : Network σ) (batch : Batch) (w : World σ) : World σ :=
  { w with
    network := (repliesTo network batch.transfers w.network).2
    calls := w.calls ++ (submissionCalls batch.transfers).map fun call => (w.now, call)
    notices := w.notices ++ [.batchSubmitted batch.size batch.pricing] }

/-- The world once note is taken of the outcomes of a batch. -/
def concluded (report : BatchReport) (w : World σ) : World σ :=
  { w with
    tally := w.tally.addBatch report.elapsed.inSeconds
    notices := w.notices ++ [.batchDone report.sent report.failed] }

theorem length_outcomes (network : Network σ) (limit : Duration) (batch : Batch) (s : σ) :
    (batch.outcomes network limit s).length = batch.size := by
  unfold outcomes size
  rw [List.length_zip, List.length_map, length_repliesTo, Nat.min_self]

theorem length_results (network : Network σ) (limit : Duration) (batch : Batch) (s : σ) :
    (batch.reportOf network limit s).results.length = batch.size := by
  show ((batch.outcomes network limit s).map _).length = _
  rw [List.length_map, length_outcomes]

theorem submit_apply (network : Network σ) (limit : Duration) (batch : Batch) {w : World σ}
    (hSome : batch.transfers ≠ []) (hOpen : w.cutOff = none) :
    batch.submit network limit w =
      (.ok (batch.reportOf network limit w.network),
        concluded (batch.reportOf network limit w.network)
          ((batch.outcomes network limit w.network).foldl (noted network)
            ((batch.handedIn network w).later
              (batch.reportOf network limit w.network).elapsed))) := by
  have hFull : ¬ batch.transfers.isEmpty = true := fun h => hSome (List.isEmpty_iff.mp h)
  unfold submit
  rw [if_neg hFull]
  rw [Act.bind_apply]
  show (handIn network batch.transfers >>= fun replies => _) _ = _
  rw [Act.bind_apply, handIn_apply]
  show (Act.sleep (batch.reportOf network limit w.network).elapsed >>= fun _ => _)
    (batch.handedIn network w) = _
  have hSleep : (Act.sleep (batch.reportOf network limit w.network).elapsed : Act σ Unit)
      (batch.handedIn network w) = (.ok (), _) :=
    (Act.returns_sleep (w := batch.handedIn network w) hOpen).mpr rfl
  rw [Act.bind_apply, hSleep]
  show (((batch.outcomes network limit w.network).forM _ : Act σ Unit) >>= fun _ => _) _ = _
  rw [Act.bind_apply, Act.forM_apply (g := noted network)]
  · rfl
  · rintro ⟨transfer, outcome⟩ v
    exact record_apply network transfer outcome v

/-- A submission returns, with a result for each transfer. -/
theorem returns_submit (network : Network σ) (limit : Duration) (batch : Batch) {w : World σ}
    (hOpen : w.cutOff = none) :
    ∃ report w', (batch.submit network limit).Returns w report w' ∧
      report.results.length = batch.size ∧
      w.Grows ((submissionCalls batch.transfers).map fun call => (w.now, call)) w' ∧
      w'.now = w.now.plus report.elapsed := by
  by_cases hSome : batch.transfers = []
  · refine ⟨{}, w, ?_, ?_, ?_, rfl⟩
    · unfold submit
      rw [hSome]
      exact Act.returns_pure.mpr ⟨rfl, rfl⟩
    · unfold size
      rw [hSome]
      rfl
    · rw [hSome]
      exact .refl w
  · have hNoted := foldl_noted network (batch.outcomes network limit w.network)
      ((batch.handedIn network w).later (batch.reportOf network limit w.network).elapsed)
    refine ⟨_, _, submit_apply network limit batch hSome hOpen, length_results _ _ _ _, ?_,
      hNoted.2.2⟩
    have hNow : w.now.nanos ≤ (w.now.plus (batch.reportOf network limit w.network).elapsed).nanos :=
      Nat.le_add_right _ _
    exact .of_logged hNoted.1 hNoted.2.1
      (Nat.le_trans hNow (Nat.le_of_eq (congrArg Duration.nanos hNoted.2.2.symm)))

/-- Endpoints that neither a payload nor its acknowledgement changes are the same after a batch. -/
theorem network_of_submit {network : Network σ}
    (hSubmit : ∀ payload s, (network.submit payload s).2 = s)
    (hAcknowledge : ∀ payload s, network.acknowledge payload s = s) {limit : Duration}
    {batch : Batch} {report : BatchReport} {w w' : World σ} (hOpen : w.cutOff = none)
    (h : (batch.submit network limit).Returns w report w') : w'.network = w.network := by
  by_cases hSome : batch.transfers = []
  · unfold submit at h
    rw [hSome] at h
    obtain ⟨_, rfl⟩ := Act.returns_pure.mp h
    rfl
  · obtain ⟨_, rfl⟩ := h.unique (submit_apply network limit batch hSome hOpen)
    exact (network_foldl_noted hAcknowledge _ _).trans
      (view_repliesTo id hSubmit batch.transfers w.network)

end Batch

end TxLoad

import TxLoad.Proofs.Run.Dispatch

/-! # Transfers of a batch do not bear on each other

Where the reaction of the endpoint depends on the payload alone, `Submission.resultsApart` says what
becomes of transfers that are handed in apart from each other. Every order in which the tasks of a
batch can run and complete reports these results, and so does `Batch.submit`.
-/

namespace TxLoad

open Submission

variable {σ : Type} {react : Bytes → Option (Reply Hash)} {limit latest now : Duration}

namespace Submission

/-- What becomes of transfers each of which meets with the reaction to its own payload only. -/
def resultsApart (limit : Duration) (react : Bytes → Option (Reply Hash))
    (transfers : List SignedTransfer) : List SubmissionResult :=
  transfers.map fun transfer => ⟨transfer.nonce, outcome limit (react transfer.payload)⟩

/-- The result is that of the transfer, and tells what the reaction to its payload amounts to: the
kinds `timeout` and `aborted` stand for what happened and not for what a node said. -/
structure Tells (limit : Duration) (reaction : Option (Reply Hash)) (transfer : SignedTransfer)
    (result : SubmissionResult) : Prop where
  nonce_eq : result.nonce = transfer.nonce
  amounts : Amounts limit reaction result.outcome
  timeout_iff : ∀ rejection, result.outcome = .error rejection →
    (rejection.kind = .timeout ↔ Overdue limit reaction)
  aborted_iff : ∀ rejection, result.outcome = .error rejection →
    (rejection.kind = .aborted ↔
      ∃ reply fault, InTime limit reaction reply ∧ reply.answer = .fault fault)

theorem tells_outcome (limit : Duration) (reaction : Option (Reply Hash))
    (transfer : SignedTransfer) :
    Tells limit reaction transfer ⟨transfer.nonce, outcome limit reaction⟩ where
  nonce_eq := rfl
  amounts := amounts_outcome limit reaction
  timeout_iff := by
    intro rejection h
    exact Amounts.kind_timeout_iff (h ▸ amounts_outcome limit reaction)
  aborted_iff := by
    intro rejection h
    exact Amounts.kind_aborted_iff (h ▸ amounts_outcome limit reaction)

theorem forall₂_resultsApart (limit : Duration) (react : Bytes → Option (Reply Hash))
    (transfers : List SignedTransfer) :
    List.Forall₂ (fun transfer => Tells limit (react transfer.payload) transfer) transfers
      (resultsApart limit react transfers) := by
  induction transfers with
  | nil => exact .nil
  | cons transfer rest ih => exact .cons (tells_outcome _ _ transfer) ih

/-- A result depends on the reaction to its own transfer alone. -/
theorem getElem?_resultsApart {react' : Bytes → Option (Reply Hash)}
    {transfers : List SignedTransfer} {i : Nat} {transfer : SignedTransfer}
    (hTransfer : transfers[i]? = some transfer)
    (hSame : react transfer.payload = react' transfer.payload) :
    (resultsApart limit react transfers)[i]? = (resultsApart limit react' transfers)[i]? := by
  unfold resultsApart
  rw [List.getElem?_map, List.getElem?_map, hTransfer, Option.map_some, Option.map_some, hSame]

theorem repliesTo_of_react {network : Network σ}
    (hReact : ∀ payload s, (network.submit payload s).1 = react payload)
    (transfers : List SignedTransfer) (s : σ) :
    (repliesTo network transfers s).1 = transfers.map fun transfer => react transfer.payload := by
  induction transfers generalizing s with
  | nil => rfl
  | cons transfer rest ih =>
    unfold repliesTo
    rw [List.map_cons, ← ih, ← hReact transfer.payload s]

end Submission

theorem Batch.outcomes_of_react {network : Network σ}
    (hReact : ∀ payload s, (network.submit payload s).1 = react payload) (batch : Batch) (s : σ) :
    batch.outcomes network limit s =
      batch.transfers.map fun transfer => (transfer, outcome limit (react transfer.payload)) := by
  unfold outcomes
  rw [repliesTo_of_react hReact, List.map_map, List.zip_eq_zipWith, List.zipWith_map_right,
    List.zipWith_self]
  rfl

theorem Batch.results_reportOf {network : Network σ}
    (hReact : ∀ payload s, (network.submit payload s).1 = react payload) (batch : Batch) (s : σ) :
    (batch.reportOf network limit s).results = resultsApart limit react batch.transfers := by
  unfold reportOf
  rw [outcomes_of_react hReact]
  exact List.map_map

/-- Taking note of outcomes warns of the hashes that are not the transfers' own. -/
theorem Submission.warnings_foldl_noted (network : Network σ)
    (outcomes : List (SignedTransfer × Except Rejection Hash)) (w : World σ) :
    ∃ told, (outcomes.foldl (noted network) w).notices = w.notices ++ told ∧
      told.filter Notice.isHashWarning =
        outcomes.flatMap fun (transfer, outcome) => Task.warningsOf transfer outcome := by
  induction outcomes generalizing w with
  | nil => exact ⟨[], (List.append_nil _).symm, rfl⟩
  | cons first rest ih =>
    obtain ⟨told, hTold, hWarned⟩ := ih (noted network w first)
    rw [List.foldl_cons, hTold, List.flatMap_cons, ← hWarned]
    obtain ⟨transfer, rejection | hash⟩ := first
    · exact ⟨.rejected transfer.nonce rejection :: told, List.append_assoc _ _ _, rfl⟩
    · refine ⟨hashNotices transfer hash ++ .sent transfer.nonce hash :: told, ?_, ?_⟩
      · show w.notices ++ hashNotices transfer hash ++ [.sent transfer.nonce hash] ++ told = _
        rw [List.append_assoc, List.append_assoc]
        rfl
      · rw [List.filter_append, Task.filter_hashNotices]
        rfl

/-- `Batch.submit` hands the payloads in one by one, in the order of the batch. It reports what
becomes of each transfer apart from the others, and warns of their hashes in the same order. -/
theorem Batch.exists_submitted {network : Network σ}
    (hReact : ∀ payload s, (network.submit payload s).1 = react payload) (limit : Duration)
    {batch : Batch} (hSome : batch.transfers ≠ []) {w : World σ} (hOpen : w.cutOff = none) :
    ∃ submitted w', (batch.submit network limit).Returns w submitted w' ∧
      submitted.results = resultsApart limit react batch.transfers ∧
      w.Grows ((submissionCalls batch.transfers).map fun call => (w.now, call)) w' ∧
      ∃ told, w'.notices = w.notices ++ told ∧
        told.filter Notice.isHashWarning = batch.transfers.flatMap fun transfer =>
          Task.warningsOf transfer (outcome limit (react transfer.payload)) := by
  obtain ⟨report, w', hReturns, _, hGrows, _⟩ := returns_submit network limit batch hOpen
  obtain ⟨rfl, rfl⟩ := hReturns.unique (submit_apply network limit batch hSome hOpen)
  obtain ⟨told, hTold, hWarned⟩ := warnings_foldl_noted network
    (batch.outcomes network limit w.network)
    ((batch.handedIn network w).later (batch.reportOf network limit w.network).elapsed)
  let begun : Notice := .batchSubmitted batch.size batch.pricing
  let report := batch.reportOf network limit w.network
  let done : Notice := .batchDone report.sent report.failed
  refine ⟨_, _, hReturns, results_reportOf hReact batch w.network, hGrows,
    begun :: told ++ [done], ?_, ?_⟩
  · refine (congrArg (· ++ [done]) hTold).trans ?_
    show w.notices ++ [begun] ++ told ++ [done] = _
    simp only [List.append_assoc, List.cons_append, List.nil_append]
  · have hBegun : begun.isHashWarning = false := rfl
    have hDone : [done].filter Notice.isHashWarning = [] := rfl
    rw [outcomes_of_react hReact, List.flatMap_map] at hWarned
    rw [List.filter_append, hDone, List.append_nil, List.filter_cons, hBegun, ← hWarned]
    rfl

namespace Dispatch

/-- What sound tasks that are over have come to and have done. -/
theorem joined_spec {tasks : List Task} {joined : List (Except Fault (Except Rejection Hash))}
    (hSound : ∀ task ∈ tasks, task.Sound react limit latest now)
    (hJoined : tasks.map Task.joined? = joined.map some) :
    resultsOf ((tasks.map Task.transfer).map SignedTransfer.nonce) joined =
        resultsApart limit react (tasks.map Task.transfer) ∧
      tasks.flatMap Task.made = submissionCalls (tasks.map Task.transfer) ∧
      tasks.flatMap Task.warnings = (tasks.map Task.transfer).flatMap fun transfer =>
        Task.warningsOf transfer (outcome limit (react transfer.payload)) := by
  induction tasks generalizing joined with
  | nil =>
    cases joined with
    | nil => exact ⟨rfl, rfl, rfl⟩
    | cons first others => cases hJoined
  | cons task rest ih =>
    cases joined with
    | nil => cases hJoined
    | cons first others =>
      rw [List.map_cons, List.map_cons, List.cons.injEq] at hJoined
      obtain ⟨hFirst, hOthers⟩ := hJoined
      obtain ⟨hResults, hMade, hWarnings⟩ :=
        ih (fun other hOther => hSound other (List.mem_cons_of_mem _ hOther)) hOthers
      obtain ⟨hSettled, hCall, hWarned⟩ := (hSound task List.mem_cons_self).of_joined hFirst
      refine ⟨?_, ?_, ?_⟩
      · show ⟨task.transfer.nonce, Task.settled first⟩ ::
            resultsOf ((rest.map Task.transfer).map SignedTransfer.nonce) others = _
        rw [hSettled, hResults]
        rfl
      · rw [List.flatMap_cons, hCall, hMade]
        rfl
      · rw [List.flatMap_cons, List.map_cons, List.flatMap_cons, hWarned, hWarnings]

variable {batch : Batch} {w : World σ} {d : Dispatch σ} {report : BatchReport}

theorem Sound.results_eq (h : d.Sound react limit latest batch w)
    (hReport : d.report = some report) :
    report.results = resultsApart limit react batch.transfers := by
  obtain ⟨joined, hJoined, hResults⟩ := h.reported report hReport
  rw [hResults, h.nonces_eq, ← h.transfers_eq]
  exact (joined_spec h.tasks hJoined).1

theorem Sound.calls_of_reported (h : d.Sound react limit latest batch w)
    (hReport : d.report = some report) :
    ∃ made, w.Grows made d.world ∧ (made.map Prod.snd).Perm (submissionCalls batch.transfers) := by
  obtain ⟨joined, hJoined, _⟩ := h.reported report hReport
  obtain ⟨made, hMade, hPerm⟩ := h.calls
  rw [(joined_spec h.tasks hJoined).2.1, h.transfers_eq] at hPerm
  exact ⟨made, hMade, hPerm⟩

theorem Sound.warnings_of_reported (h : d.Sound react limit latest batch w)
    (hReport : d.report = some report) :
    ∃ told, d.world.notices = w.notices ++ told ∧
      (told.filter Notice.isHashWarning).Perm (batch.transfers.flatMap fun transfer =>
        Task.warningsOf transfer (outcome limit (react transfer.payload))) := by
  obtain ⟨joined, hJoined, _⟩ := h.reported report hReport
  obtain ⟨told, hTold, hPerm⟩ := h.warnings
  rw [(joined_spec h.tasks hJoined).2.2, h.transfers_eq] at hPerm
  exact ⟨told, hTold, hPerm⟩

theorem sound_of_reaches {network : Network σ} {lag : Duration} {d : Dispatch σ}
    (hReact : ∀ payload s, (network.submit payload s).1 = react payload)
    (hReach : Reaches network limit (w.now.plus lag) (batch.dispatch w) d) :
    d.Sound react limit (w.now.plus lag) batch w :=
  (sound_dispatch react limit batch (Nat.le_add_right _ _)).reaches hReact hReach

end Dispatch

open Dispatch in
/-- Whatever the order in which the tasks of a batch run and complete: it comes to an end, and only
with a report. Then every payload has been handed in once. The report tells for each transfer, in
the order of the batch, what the reaction to its own payload amounts to, whatever the reactions to
the other payloads are. The hashes that are warned of are those of the acknowledged transfers whose
own hash is another one. `Batch.submit` reports the same, and does so with the same calls and the
same warnings, each in the order of the batch. -/
theorem Batch.dispatch_refines_submit {network : Network σ}
    (hReact : ∀ payload s, (network.submit payload s).1 = react payload) (limit lag : Duration)
    {batch : Batch} (hSome : batch.transfers ≠ []) (w : World σ) :
    Acc (fun later earlier => Step network limit (w.now.plus lag) earlier later)
        (batch.dispatch w) ∧
      (∀ d : Dispatch σ, Reaches network limit (w.now.plus lag) (batch.dispatch w) d →
        d.report = none → ∃ d', Step network limit (w.now.plus lag) d d') ∧
      ∀ (d : Dispatch σ) (report : BatchReport),
        Reaches network limit (w.now.plus lag) (batch.dispatch w) d → d.report = some report →
          (∃ made, w.Grows made d.world ∧
            (made.map Prod.snd).Perm (submissionCalls batch.transfers)) ∧
          List.Forall₂ (fun transfer => Tells limit (react transfer.payload) transfer)
            batch.transfers report.results ∧
          report.sent + report.failed = batch.size ∧
          (∃ told, d.world.notices = w.notices ++ told ∧
            (told.filter Notice.isHashWarning).Perm (batch.transfers.flatMap fun transfer =>
              Task.warningsOf transfer (outcome limit (react transfer.payload)))) ∧
          (∀ {σ' : Type} {network' : Network σ'} {react' : Bytes → Option (Reply Hash)}
            {lag' : Duration} {w' : World σ'} {d' : Dispatch σ'} {report' : BatchReport},
            (∀ payload s, (network'.submit payload s).1 = react' payload) →
            Reaches network' limit (w'.now.plus lag') (batch.dispatch w') d' →
            d'.report = some report' →
              ∀ (i : Nat) (transfer : SignedTransfer), batch.transfers[i]? = some transfer →
              react transfer.payload = react' transfer.payload →
                report.results[i]? = report'.results[i]?) ∧
          (w.cutOff = none → ∃ submitted w', (batch.submit network limit).Returns w submitted w' ∧
            submitted.results = report.results ∧
            w.Grows ((submissionCalls batch.transfers).map fun call => (w.now, call)) w' ∧
            ∃ told, w'.notices = w.notices ++ told ∧
              told.filter Notice.isHashWarning = batch.transfers.flatMap fun transfer =>
                Task.warningsOf transfer (outcome limit (react transfer.payload))) := by
  refine ⟨(sound_dispatch react limit batch (Nat.le_add_right _ _)).terminates hReact,
    fun d _ hOpen => exists_step network limit _ hOpen, ?_⟩
  intro d report hReach hReport
  have hSound := sound_of_reaches hReact hReach
  have hResults := hSound.results_eq hReport
  refine ⟨hSound.calls_of_reported hReport, ?_, ?_, hSound.warnings_of_reported hReport, ?_, ?_⟩
  · rw [hResults]
    exact forall₂_resultsApart limit react batch.transfers
  · rw [report.sent_add_failed, hResults]
    exact List.length_map _
  · intro σ' network' react' lag' w' d' report' hReact' hReach' hReport' i transfer hTransfer hSame
    rw [hResults, (sound_of_reaches hReact' hReach').results_eq hReport']
    exact getElem?_resultsApart hTransfer hSame
  · intro hOpen
    rw [hResults]
    exact Batch.exists_submitted hReact limit hSome hOpen

/-- A node that acknowledges the first payload right at the limit under another name, refuses the
second with a text that speaks of a timeout, makes the third one's task panic, and is late for the
fourth. -/
def moody : Bytes → Option (Reply Hash)
  | [1] => some ⟨.ofSecs 5, .value ⟨17⟩⟩
  | [2] => some ⟨.ofSecs 1, .failure (.call ⟨"eth_sendRawTransaction", "timeout: nonce too low"⟩)⟩
  | [3] => some ⟨.zero, .fault (.raised "boom")⟩
  | _ => some ⟨.ofSecs 6, .value ⟨4⟩⟩

def moodyNetwork : Network Unit where
  genesisTime _ s := (.now (.value 0), s)
  chainId s := (.now (.value 1), s)
  fees _ s := (⟨.now (.value 21000), .now (.value none), .now (.value 1)⟩, s)
  pendingCount _ s := (.now (.value 0), s)
  submit payload s := (moody payload, s)
  acknowledge _ s := s

/-- Four transfers with the nonces from seven on. -/
def fourTransfers : Batch where
  pricing := ⟨21000, 2, 1⟩
  transfers := [⟨7, ⟨1⟩, [1], {}⟩, ⟨8, ⟨2⟩, [2], {}⟩, ⟨9, ⟨3⟩, [3], {}⟩, ⟨10, ⟨4⟩, [4], {}⟩]

/-- A dispatch of the four transfers comes to a report, which names the four outcomes in order.
`Batch.submit` reports the same; it hands the four payloads in, and warns of the other name that the
first was given. -/
theorem fourTransfers_reported :
    (∀ payload s, (moodyNetwork.submit payload s).1 = moody payload) ∧
      fourTransfers.transfers ≠ [] ∧
      ∃ d report, Dispatch.Reaches moodyNetwork (.ofSecs 5) (Duration.zero.plus (.ofSecs 2))
          (fourTransfers.dispatch { network := () }) d ∧ d.report = some report ∧
        report.results.map SubmissionResult.nonce = [7, 8, 9, 10] ∧
        report.results.map SubmissionResult.outcome =
          [.ok ⟨17⟩, .error ⟨.nonceTooLow, "timeout: nonce too low"⟩,
            .error ⟨.aborted, "task panicked with message \"boom\""⟩,
            .error ⟨.timeout, "no response within 5s"⟩] ∧
        ∃ submitted w',
          (fourTransfers.submit moodyNetwork (.ofSecs 5)).Returns { network := () } submitted w' ∧
          submitted.results = report.results ∧
          w'.calls.map Prod.snd = [.submit [1], .submit [2], .submit [3], .submit [4]] ∧
          w'.notices.filter Notice.isHashWarning = [.unexpectedHash 7 ⟨1⟩ ⟨17⟩] := by
  have hReact : ∀ payload s, (moodyNetwork.submit payload s).1 = moody payload :=
    fun _ _ => rfl
  have hSome : fourTransfers.transfers ≠ [] := by decide
  obtain ⟨hEnds, _, hReports⟩ :=
    Batch.dispatch_refines_submit hReact (.ofSecs 5) (.ofSecs 2) hSome { network := () }
  obtain ⟨d, report, hReach, hReport⟩ := Dispatch.exists_report_of_terminates hEnds
  obtain ⟨_, _, _, _, _, hSubmit⟩ := hReports d report hReach hReport
  obtain ⟨submitted, w', hSubmitted, hSame, hGrows, told, hTold, hWarned⟩ := hSubmit rfl
  have hSubmittedEq := (hSubmitted.unique
    (Batch.submit_apply moodyNetwork (.ofSecs 5) fourTransfers hSome rfl)).1
  have hNames : submitted.results.map SubmissionResult.nonce = [7, 8, 9, 10] := by
    rw [hSubmittedEq]
    decide
  have hOutcomes : submitted.results.map SubmissionResult.outcome =
      [.ok ⟨17⟩, .error ⟨.nonceTooLow, "timeout: nonce too low"⟩,
        .error ⟨.aborted, "task panicked with message \"boom\""⟩,
        .error ⟨.timeout, "no response within 5s"⟩] := by
    rw [hSubmittedEq]
    decide +kernel
  refine ⟨hReact, hSome, d, report, hReach, hReport, hSame ▸ hNames, hSame ▸ hOutcomes,
    submitted, w', hSubmitted, hSame, ?_, ?_⟩
  · rw [hGrows.calls_eq]
    rfl
  · rw [hTold]
    exact hWarned

end TxLoad

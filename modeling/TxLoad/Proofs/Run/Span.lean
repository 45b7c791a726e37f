import Mathlib.Order.Bounds.Basic
import TxLoad.Proofs.Run.Independence

/-! # How long a submission takes

All payloads of a batch are handed in at the moment at which the submission starts, and it ends as
soon as the last of them is answered or given up. `Batch.Spans` says so of one submission. It holds
of `Batch.submit`, and it holds of every order in which the tasks of a batch can run, provided that
no time passes while a task can begin: then the tasks do not wait for each other.

The invariant is `Dispatch.Timed`. A task that is over has waited as long as it must, and no more
time has passed than some task waits.
-/

namespace TxLoad

open Submission

variable {σ : Type}

namespace Submission

/-- What a reply that is received amounts to. -/
def received : Answer Hash → Except Rejection Hash
  | .value hash => .ok hash
  | .failure f => .error (.ofFailure f)
  | .fault f => .error (.ofFault f)

/-- What is reported of a transfer: the reply if it has come within the limit, right at its end
included, and else that there was none. -/
structure Reports (limit : Duration) (reaction : Option (Reply Hash))
    (result : SubmissionResult) : Prop where
  inTime : ∀ reply, reaction = some reply → reply.delay.nanos ≤ limit.nanos →
    result.outcome = received reply.answer
  overdue : (∀ reply, reaction = some reply → limit.nanos < reply.delay.nanos) →
    result.outcome = .error (.ofTimeout limit)

theorem reports_of_outcome_eq {limit : Duration} {reaction : Option (Reply Hash)}
    {result : SubmissionResult} (h : result.outcome = outcome limit reaction) :
    Reports limit reaction result where
  inTime := by
    intro reply hReply hDelay
    have hInTime : InTime limit reaction reply := ⟨hReply, hDelay⟩
    rw [h, hInTime.outcome_eq]
    cases reply.answer <;> rfl
  overdue := by
    intro hOverdue
    exact h.trans (Overdue.outcome_eq hOverdue)

/-! ## The longest of several spans -/

theorem foldl_longer (spans : List Duration) (first : Duration) :
    first.nanos ≤ (spans.foldl Duration.longer first).nanos ∧
      (∀ span ∈ spans, span.nanos ≤ (spans.foldl Duration.longer first).nanos) ∧
      ((spans.foldl Duration.longer first).nanos = first.nanos ∨
        ∃ span ∈ spans, (spans.foldl Duration.longer first).nanos = span.nanos) := by
  induction spans generalizing first with
  | nil => exact ⟨Nat.le_refl _, nofun, .inl rfl⟩
  | cons span spans ih =>
    obtain ⟨hFirst, hRest, hFound⟩ := ih (first.longer span)
    rw [List.foldl_cons]
    have hOwn : first.nanos ≤ (first.longer span).nanos := Nat.le_max_left _ _
    have hOther : span.nanos ≤ (first.longer span).nanos := Nat.le_max_right _ _
    refine ⟨Nat.le_trans hOwn hFirst, ?_, ?_⟩
    · intro other hMem
      rcases List.mem_cons.mp hMem with rfl | hLater
      · exact Nat.le_trans hOther hFirst
      · exact hRest other hLater
    · rcases hFound with hFound | ⟨other, hLater, hFound⟩
      · rcases Nat.le_total first.nanos span.nanos with hLe | hLe
        · exact .inr ⟨span, List.mem_cons_self, hFound.trans (Nat.max_eq_right hLe)⟩
        · exact .inl (hFound.trans (Nat.max_eq_left hLe))
      · exact .inr ⟨other, List.mem_cons_of_mem _ hLater, hFound⟩

theorem isGreatest_longest {spans : List Duration} (hSome : spans ≠ []) :
    IsGreatest {n | ∃ span ∈ spans, n = span.nanos} (longest spans).nanos := by
  obtain ⟨_, hAll, hFound⟩ := foldl_longer spans .zero
  constructor
  · rcases hFound with hZero | hFound
    · obtain ⟨span, hSpan⟩ := List.exists_mem_of_ne_nil spans hSome
      have hLe := hAll span hSpan
      exact ⟨span, hSpan, Nat.le_antisymm (hZero ▸ Nat.zero_le _) hLe⟩
    · exact hFound
  · rintro _ ⟨span, hSpan, rfl⟩
    exact hAll span hSpan

end Submission

/-! ## Submissions that take no longer than they must -/

/-- A submission that starts in `w` and ends in `w'`, where the endpoint reacts to the transfers in
this way. -/
structure Batch.Spans (batch : Batch) (limit : Duration) (reactions : List (Option (Reply Hash)))
    (w w' : World σ) (report : BatchReport) : Prop where
  /-- All payloads are handed in at the start. -/
  calls : ∃ made : List Call, made.Perm (submissionCalls batch.transfers) ∧
    w'.calls = w.calls ++ made.map fun call => (w.now, call)
  /-- It ends with the last reaction, or at the limit if that comes before. -/
  ends : IsGreatest {t | ∃ reaction ∈ reactions, t = w.now.nanos + (waited limit reaction).nanos}
    w'.now.nanos
  within : w'.now.nanos ≤ w.now.nanos + limit.nanos
  elapsed : w'.now = w.now.plus report.elapsed
  results : List.Forall₂ (Reports limit) reactions report.results

namespace Batch

theorem map_outcome_results (network : Network σ) (limit : Duration) (batch : Batch) (s : σ) :
    (batch.reportOf network limit s).results.map SubmissionResult.outcome =
      (repliesTo network batch.transfers s).1.map (outcome limit) := by
  have hLength := length_repliesTo network batch.transfers s
  unfold reportOf outcomes
  dsimp only
  rw [List.map_map]
  exact List.map_snd_zip (by rw [List.length_map, hLength])

theorem forall₂_reports {limit : Duration} {reactions : List (Option (Reply Hash))}
    {results : List SubmissionResult}
    (h : results.map SubmissionResult.outcome = reactions.map (outcome limit)) :
    List.Forall₂ (Reports limit) reactions results := by
  have hSame : List.Forall₂ (· = ·) (reactions.map (outcome limit))
      (results.map SubmissionResult.outcome) := List.forall₂_eq_eq_eq ▸ h.symm
  rw [List.forall₂_map_left_iff, List.forall₂_map_right_iff] at hSame
  exact hSame.imp fun _ _ hOutcome => reports_of_outcome_eq hOutcome.symm

/-- A moment that is the last of some, each of which is within the limit. -/
theorem within_of_ends {limit start moment : Duration} {reactions : List (Option (Reply Hash))}
    (h : IsGreatest {t | ∃ reaction ∈ reactions, t = start.nanos + (waited limit reaction).nanos}
      moment.nanos) : moment.nanos ≤ start.nanos + limit.nanos := by
  obtain ⟨reaction, _, hMoment⟩ := h.1
  have hWaited := Task.waited_le_limit limit reaction
  omega

theorem ends_of_longest (limit start : Duration) {reactions : List (Option (Reply Hash))}
    (hSome : reactions ≠ []) :
    IsGreatest {t | ∃ reaction ∈ reactions, t = start.nanos + (waited limit reaction).nanos}
      (start.plus (longest (reactions.map (waited limit)))).nanos := by
  have hSpans : reactions.map (waited limit) ≠ [] := fun h => hSome (List.map_eq_nil_iff.mp h)
  obtain ⟨⟨span, hSpan, hLongest⟩, hUpper⟩ := isGreatest_longest hSpans
  constructor
  · obtain ⟨reaction, hMem, rfl⟩ := List.mem_map.mp hSpan
    exact ⟨reaction, hMem, congrArg (start.nanos + ·) hLongest⟩
  · rintro _ ⟨reaction, hMem, rfl⟩
    exact Nat.add_le_add_left (hUpper ⟨_, List.mem_map_of_mem hMem, rfl⟩) _

/-- A submission hands all payloads in at once and waits for the last reaction. -/
theorem spans_submit (network : Network σ) (limit : Duration) {batch : Batch}
    (hSome : batch.transfers ≠ []) {w : World σ} (hOpen : w.cutOff = none) :
    ∃ report w', (batch.submit network limit).Returns w report w' ∧
      batch.Spans limit (repliesTo network batch.transfers w.network).1 w w' report := by
  have hReplies : (repliesTo network batch.transfers w.network).1 ≠ [] := by
    intro hNone
    have hLength := length_repliesTo network batch.transfers w.network
    rw [hNone] at hLength
    exact hSome (List.length_eq_zero_iff.mp hLength.symm)
  obtain ⟨_, hCalls, hNow⟩ := foldl_noted network (batch.outcomes network limit w.network)
    ((batch.handedIn network w).later (batch.reportOf network limit w.network).elapsed)
  have hEnds := ends_of_longest limit w.now hReplies
  refine ⟨_, _, submit_apply network limit batch hSome hOpen, ?_⟩
  exact {
    calls := ⟨submissionCalls batch.transfers, .refl _, hCalls⟩
    ends := hNow ▸ hEnds
    within := hNow ▸ within_of_ends hEnds
    elapsed := hNow
    results := forall₂_reports (map_outcome_results network limit batch w.network) }

/-- A submission takes no longer than the limit. -/
theorem now_le_of_submit {network : Network σ} {limit : Duration} {batch : Batch}
    {report : BatchReport} {w w' : World σ} (hOpen : w.cutOff = none)
    (h : (batch.submit network limit).Returns w report w') :
    w'.now.nanos ≤ w.now.nanos + limit.nanos := by
  by_cases hSome : batch.transfers = []
  · unfold submit at h
    rw [hSome] at h
    obtain ⟨_, rfl⟩ := Act.returns_pure.mp h
    exact Nat.le_add_right _ _
  · obtain ⟨_, _, hReturns, hSpans⟩ := spans_submit network limit hSome hOpen
    obtain ⟨_, rfl⟩ := h.unique hReturns
    exact hSpans.within

end Batch

/-! ## Tasks that do not wait for each other -/

namespace Task

variable {network : Network σ} {react : Bytes → Option (Reply Hash)}
  {limit latest start now moment : Duration} {w w' : World σ} {task task' : Task}

/-- The task begins at `start` or later, and is over only once its reaction is there or the limit
has passed. -/
inductive Timed (react : Bytes → Option (Reply Hash)) (limit start now : Duration) : Task → Prop
  | spawned {transfer : SignedTransfer} : Timed react limit start now ⟨transfer, .spawned⟩
  | waiting {transfer : SignedTransfer} {since : Duration} {reply : Option (Reply Hash)}
      (hSince : start.nanos ≤ since.nanos) :
      Timed react limit start now ⟨transfer, .waiting since reply⟩
  | finished {task : Task} (hOver : task.joined? ≠ none)
      (hWaited : start.nanos + (waited limit (react task.transfer.payload)).nanos ≤ now.nanos) :
      Timed react limit start now task

/-- A move is the first one of a task, or the one with which it is over: then it has waited. -/
theorem Move.begun_or_over (h : Move network limit w task w' task') :
    (∃ reply, task'.stage = .waiting w.now reply) ∨
      ∃ since reply, task.stage = .waiting since reply ∧
        (since.plus (waited limit reply)).nanos ≤ w.now.nanos ∧ task'.joined? ≠ none := by
  have hSoon (since : Duration) (reply : Reply Hash)
      (hThere : (since.plus reply.delay).nanos ≤ w.now.nanos) :
      (since.plus (waited limit (some reply))).nanos ≤ w.now.nanos :=
    Nat.le_trans (Nat.add_le_add_left (Nat.min_le_right _ _) _) hThere
  cases h with
  | handIn transfer => exact .inl ⟨_, rfl⟩
  | acknowledged hThere _ => exact .inr ⟨_, _, rfl, hSoon _ _ hThere, nofun⟩
  | refused hThere _ => exact .inr ⟨_, _, rfl, hSoon _ _ hThere, nofun⟩
  | panicked hThere _ => exact .inr ⟨_, _, rfl, hSoon _ _ hThere, nofun⟩
  | gaveUp hPassed _ =>
    refine .inr ⟨_, _, rfl, ?_, nofun⟩
    exact Nat.le_trans (Nat.add_le_add_left (waited_le_limit limit _) _) hPassed

theorem Timed.move (h : Timed react limit start w.now task)
    (hSound : Sound react limit latest w.now task) (hStart : start.nanos ≤ w.now.nanos)
    (hMove : Move network limit w task w' task') : Timed react limit start w'.now task' := by
  have hTransfer := hMove.transfer_eq
  rw [hMove.now_eq]
  rcases hMove.begun_or_over with ⟨reply, hBegun⟩ | ⟨since, reply, hWaiting, hPassed, hOver⟩
  · obtain ⟨transfer, stage⟩ := task'
    cases hBegun
    exact .waiting hStart
  · obtain ⟨transfer, stage⟩ := task
    cases hWaiting
    refine .finished hOver ?_
    rw [hTransfer]
    cases hSound with
    | waiting hReply _ _ =>
      cases h with
      | waiting hSince =>
        rw [← hReply]
        exact Nat.le_trans (Nat.add_le_add_right hSince _) hPassed
      | finished hNever _ => exact absurd rfl hNever

theorem Timed.later (h : Timed react limit start now task) (hLater : now.nanos ≤ moment.nanos) :
    Timed react limit start moment task := by
  cases h with
  | spawned => exact .spawned
  | waiting hSince => exact .waiting hSince
  | finished hOver hWaited => exact .finished hOver (Nat.le_trans hWaited hLater)

theorem Timed.waited_of_over (h : Timed react limit start now task)
    (hOver : task.joined? ≠ none) :
    start.nanos + (waited limit (react task.transfer.payload)).nanos ≤ now.nanos := by
  cases h with
  | spawned => exact absurd rfl hOver
  | waiting _ => exact absurd rfl hOver
  | finished _ hWaited => exact hWaited

/-- A payload is handed in by the latest moment. -/
theorem Move.calls_by_latest (h : Move network limit w task w' task')
    (hSound : Sound react limit latest w.now task) :
    ∃ made, w'.calls = w.calls ++ made ∧ ∀ call ∈ made, call.1.nanos ≤ latest.nanos := by
  cases h with
  | handIn transfer =>
    cases hSound with
    | spawned hNow =>
      refine ⟨[(w.now, .submit transfer.payload)], rfl, ?_⟩
      intro call hCall
      obtain rfl := List.mem_singleton.mp hCall
      exact hNow
  | acknowledged _ _ => exact ⟨[], (List.append_nil _).symm, List.forall_mem_nil _⟩
  | refused _ _ => exact ⟨[], (List.append_nil _).symm, List.forall_mem_nil _⟩
  | panicked _ _ => exact ⟨[], (List.append_nil _).symm, List.forall_mem_nil _⟩
  | gaveUp _ _ => exact ⟨[], (List.append_nil _).symm, List.forall_mem_nil _⟩

end Task

/-! ## Batches whose tasks do not wait for each other -/

namespace Dispatch

variable {network : Network σ} {react : Bytes → Option (Reply Hash)} {limit latest : Duration}
  {batch : Batch} {w : World σ} {d d' : Dispatch σ} {report : BatchReport}

/-- How the time has passed since the tasks of the batch were spawned in `w`. -/
structure Timed (react : Bytes → Option (Reply Hash)) (limit latest : Duration) (batch : Batch)
    (w : World σ) (d : Dispatch σ) : Prop where
  sound : d.Sound react limit latest batch w
  tasks : ∀ task ∈ d.tasks, task.Timed react limit w.now d.world.now
  calls : ∃ made, d.world.calls = w.calls ++ made ∧ ∀ call ∈ made, call.1.nanos ≤ latest.nanos
  /-- Some task has had to wait for so long. -/
  needed : ∃ transfer ∈ batch.transfers,
    d.world.now.nanos ≤ latest.nanos + (waited limit (react transfer.payload)).nanos
  started_eq : d.started = w.now
  elapsed : ∀ report, d.report = some report → d.world.now = w.now.plus report.elapsed

theorem Sound.now_le (h : d.Sound react limit latest batch w) :
    w.now.nanos ≤ d.world.now.nanos := by
  obtain ⟨_, hGrows, _⟩ := h.calls
  exact hGrows.now_le

theorem timed_dispatch (react : Bytes → Option (Reply Hash)) (limit : Duration) {batch : Batch}
    (hSome : batch.transfers ≠ []) (hLatest : w.now.nanos ≤ latest.nanos) :
    (batch.dispatch w).Timed react limit latest batch w where
  sound := sound_dispatch react limit batch hLatest
  tasks := by
    intro task hTask
    obtain ⟨transfer, _, rfl⟩ := List.mem_map.mp hTask
    exact .spawned
  calls := ⟨[], (List.append_nil _).symm, List.forall_mem_nil _⟩
  needed := by
    obtain ⟨transfer, hTransfer⟩ := List.exists_mem_of_ne_nil _ hSome
    exact ⟨transfer, hTransfer, Nat.le_trans hLatest (Nat.le_add_right _ _)⟩
  started_eq := rfl
  elapsed := nofun

theorem Timed.work {before after : List Task} {task task' : Task} {w' : World σ}
    (hReact : ∀ payload s, (network.submit payload s).1 = react payload)
    (h : d.Timed react limit latest batch w) (hTasks : d.tasks = before ++ task :: after)
    (hMove : Task.Move network limit d.world task w' task') :
    Timed react limit latest batch w { d with world := w', tasks := before ++ task' :: after } := by
  have hTask : task ∈ d.tasks := by
    rw [hTasks]
    exact List.mem_append_right _ List.mem_cons_self
  have hSound := h.sound.tasks task hTask
  refine ⟨h.sound.work hReact hTasks hMove, ?_, ?_, ?_, h.started_eq, ?_⟩
  · intro other hOther
    rcases mem_or_mem_of_move hTasks hOther with rfl | hOld
    · exact (h.tasks task hTask).move hSound h.sound.now_le hMove
    · show other.Timed react limit w.now w'.now
      rw [hMove.now_eq]
      exact h.tasks other hOld
  · obtain ⟨made, hMade, hTimely⟩ := h.calls
    obtain ⟨more, hMore, hTimely'⟩ := hMove.calls_by_latest hSound
    refine ⟨made ++ more, ?_, ?_⟩
    · show w'.calls = _
      rw [hMore, hMade, List.append_assoc]
    · intro call hCall
      exact (List.mem_append.mp hCall).elim (hTimely call) (hTimely' call)
  · show ∃ transfer ∈ batch.transfers, w'.now.nanos ≤ _
    rw [hMove.now_eq]
    exact h.needed
  · intro report hReport
    exact absurd hReport (h.sound.not_reported hTask hMove.joined_eq_none)

theorem Timed.pass {moment : Duration} (h : d.Timed react limit latest batch w)
    (hLater : d.world.now.nanos < moment.nanos)
    (hUnfinished : ∃ task ∈ d.tasks, task.joined? = none)
    (hDue : ∀ task ∈ d.tasks, ∀ due, task.due? limit latest = some due →
      moment.nanos ≤ due.nanos) :
    Timed react limit latest batch w { d with world := { d.world with now := moment } } := by
  obtain ⟨waiting, hWaiting, hUnjoined⟩ := hUnfinished
  refine ⟨h.sound.pass hLater hDue, ?_, h.calls, ?_, h.started_eq, ?_⟩
  · intro task hTask
    exact (h.tasks task hTask).later (Nat.le_of_lt hLater)
  · obtain ⟨due, hSome, _⟩ := h.sound.exists_due hWaiting hUnjoined
    refine ⟨waiting.transfer, ?_, ?_⟩
    · rw [← h.sound.transfers_eq]
      exact List.mem_map_of_mem hWaiting
    · exact Nat.le_trans (hDue waiting hWaiting due hSome)
        ((h.sound.tasks waiting hWaiting).due_le_waited hSome)
  · intro report hReport
    exact absurd hReport (h.sound.not_reported hWaiting hUnjoined)

theorem Timed.collect {joined : List (Except Fault (Except Rejection Hash))}
    (h : d.Timed react limit latest batch w)
    (hJoined : d.tasks.map Task.joined? = joined.map some) :
    Timed react limit latest batch w
      { d with
        world := Batch.concluded (d.reported joined)
          ((d.reported joined).results.foldl entered d.world)
        report := some (d.reported joined) } := by
  obtain ⟨_, hCalls, hNow, _⟩ := foldl_entered (d.reported joined).results d.world
  refine ⟨h.sound.collect hJoined, ?_, ?_, ?_, h.started_eq, ?_⟩
  · intro task hTask
    show task.Timed react limit w.now ((d.reported joined).results.foldl entered d.world).now
    rw [hNow]
    exact h.tasks task hTask
  · show ∃ made, ((d.reported joined).results.foldl entered d.world).calls = _ ∧ _
    rw [hCalls]
    exact h.calls
  · show ∃ transfer ∈ batch.transfers,
      ((d.reported joined).results.foldl entered d.world).now.nanos ≤ _
    rw [hNow]
    exact h.needed
  · intro report hReport
    cases hReport
    show ((d.reported joined).results.foldl entered d.world).now = _
    rw [hNow]
    have hLe := h.sound.now_le
    show d.world.now = w.now.plus (d.world.now.monus d.started)
    rw [h.started_eq]
    exact congrArg Duration.mk (Nat.add_sub_cancel' hLe).symm

theorem Timed.step (hReact : ∀ payload s, (network.submit payload s).1 = react payload)
    (h : d.Timed react limit latest batch w) (hStep : Step network limit latest d d') :
    d'.Timed react limit latest batch w := by
  cases hStep with
  | work hTasks hMove => exact h.work hReact hTasks hMove
  | pass hLater hUnfinished hDue => exact h.pass hLater hUnfinished hDue
  | collect _ hJoined => exact h.collect hJoined

theorem Timed.reaches (hReact : ∀ payload s, (network.submit payload s).1 = react payload)
    (h : d.Timed react limit latest batch w) (hReach : Reaches network limit latest d d') :
    d'.Timed react limit latest batch w := by
  induction hReach with
  | refl => exact h
  | tail _ hStep ih => exact ih.step hReact hStep

/-- Once there is a report, every task has waited. -/
theorem Timed.waited_le (h : d.Timed react limit latest batch w)
    (hReport : d.report = some report) {transfer : SignedTransfer}
    (hTransfer : transfer ∈ batch.transfers) :
    w.now.nanos + (waited limit (react transfer.payload)).nanos ≤ d.world.now.nanos := by
  rw [← h.sound.transfers_eq] at hTransfer
  obtain ⟨task, hTask, rfl⟩ := List.mem_map.mp hTransfer
  apply (h.tasks task hTask).waited_of_over
  intro hUnjoined
  exact h.sound.not_reported hTask hUnjoined hReport

/-- Where no time passes while a task can begin, all payloads are handed in at the start. -/
theorem Timed.calls_at_start (h : d.Timed react limit w.now batch w)
    (hReport : d.report = some report) :
    ∃ made : List Call, made.Perm (submissionCalls batch.transfers) ∧
      d.world.calls = w.calls ++ made.map fun call => (w.now, call) := by
  obtain ⟨made, hGrows, hPerm⟩ := h.sound.calls_of_reported hReport
  obtain ⟨made', hMade', hTimely⟩ := h.calls
  obtain rfl : made = made' := List.append_cancel_left (hGrows.calls_eq.symm.trans hMade')
  refine ⟨made.map Prod.snd, hPerm, ?_⟩
  rw [hGrows.calls_eq, List.map_map]
  congr 1
  refine (List.map_id made).symm.trans (List.map_congr_left ?_)
  intro call hCall
  have hStart := (hGrows.timely call hCall).1
  have hLatest := hTimely call hCall
  obtain ⟨⟨moment⟩, call⟩ := call
  have hSame : moment = w.now.nanos := Nat.le_antisymm hLatest hStart
  rw [hSame]
  rfl

theorem Timed.spans (h : d.Timed react limit w.now batch w) (hReport : d.report = some report) :
    batch.Spans limit (batch.transfers.map fun transfer => react transfer.payload) w d.world
      report := by
  have hEnds : IsGreatest {t | ∃ reaction ∈ batch.transfers.map fun transfer =>
      react transfer.payload, t = w.now.nanos + (waited limit reaction).nanos}
      d.world.now.nanos := by
    constructor
    · obtain ⟨transfer, hTransfer, hNeeded⟩ := h.needed
      exact ⟨_, List.mem_map_of_mem hTransfer,
        Nat.le_antisymm hNeeded (h.waited_le hReport hTransfer)⟩
    · rintro _ ⟨reaction, hMem, rfl⟩
      obtain ⟨transfer, hTransfer, rfl⟩ := List.mem_map.mp hMem
      exact h.waited_le hReport hTransfer
  exact {
    calls := h.calls_at_start hReport
    ends := hEnds
    within := Batch.within_of_ends hEnds
    elapsed := h.elapsed report hReport
    results := by
      apply Batch.forall₂_reports
      rw [h.sound.results_eq hReport]
      unfold resultsApart
      rw [List.map_map, List.map_map]
      rfl }

end Dispatch

open Dispatch in
/-- A submission takes as long as its slowest transfer, and no longer than the limit, however many
transfers there are. All payloads are handed in at its start, and a reply that comes right at the
limit is received. `Batch.submit` does so for every endpoint. Where the reaction to a payload
depends on the payload alone, so does every order in which the tasks of the batch can run, as long
as no time passes while a task can begin; each order comes to an end, and only with a report. -/
theorem Batch.spans_of_submitted (network : Network σ) (limit : Duration) {batch : Batch}
    (hSome : batch.transfers ≠ []) (w : World σ) :
    (w.cutOff = none → ∃ report w', (batch.submit network limit).Returns w report w' ∧
      batch.Spans limit (repliesTo network batch.transfers w.network).1 w w' report) ∧
    ∀ react : Bytes → Option (Reply Hash),
      (∀ payload s, (network.submit payload s).1 = react payload) →
        Acc (fun later earlier => Step network limit w.now earlier later) (batch.dispatch w) ∧
        ∀ d : Dispatch σ, Reaches network limit w.now (batch.dispatch w) d →
          (d.report = none → ∃ d', Step network limit w.now d d') ∧
          ∀ report, d.report = some report →
            batch.Spans limit (batch.transfers.map fun transfer => react transfer.payload) w
              d.world report := by
  refine ⟨fun hOpen => spans_submit network limit hSome hOpen, ?_⟩
  intro react hReact
  have hStart := timed_dispatch react limit hSome (Nat.le_refl w.now.nanos)
  refine ⟨hStart.sound.terminates hReact, ?_⟩
  intro d hReach
  refine ⟨exists_step network limit w.now, ?_⟩
  intro report hReport
  exact (hStart.reaches hReact hReach).spans hReport

/-- Three seconds into a run. -/
def threeIn : World Unit where
  network := ()
  now := .ofSecs 3
  calls := [(.zero, .chainId)]

/-- The four transfers take five seconds, right at whose end the first is acknowledged. -/
theorem fourTransfers_span :
    fourTransfers.transfers ≠ [] ∧ threeIn.cutOff = none ∧
      (∀ payload s, (moodyNetwork.submit payload s).1 = moody payload) ∧
      (∃ report w', (fourTransfers.submit moodyNetwork (.ofSecs 5)).Returns threeIn report w' ∧
        w'.now.nanos = (Duration.ofSecs 8).nanos) ∧
      ∃ d report, Dispatch.Reaches moodyNetwork (.ofSecs 5) threeIn.now
          (fourTransfers.dispatch threeIn) d ∧ d.report = some report ∧
        d.world.now.nanos = (Duration.ofSecs 8).nanos ∧
        report.results.head?.map SubmissionResult.outcome = some (.ok ⟨17⟩) := by
  have hSome : fourTransfers.transfers ≠ [] := by decide
  have hReact : ∀ payload s, (moodyNetwork.submit payload s).1 = moody payload :=
    fun _ _ => rfl
  obtain ⟨hSubmit, hDispatch⟩ :=
    Batch.spans_of_submitted moodyNetwork (.ofSecs 5) hSome threeIn
  obtain ⟨report, w', hReturns, hSpans⟩ := hSubmit rfl
  obtain ⟨hEnds, hReports⟩ := hDispatch moody hReact
  obtain ⟨d, reported, hReach, hReported⟩ := Dispatch.exists_report_of_terminates hEnds
  have hDone := (hReports d hReach).2 reported hReported
  obtain ⟨first, rest, hFirst, _, hResults⟩ := List.forall₂_cons_left_iff.mp hDone.results
  refine ⟨hSome, rfl, hReact, ⟨report, w', hReturns, ?_⟩, d, reported, hReach, hReported, ?_, ?_⟩
  · exact Nat.le_antisymm hSpans.within (hSpans.ends.2 ⟨moody [1], List.mem_cons_self, rfl⟩)
  · exact Nat.le_antisymm hDone.within (hDone.ends.2 ⟨moody [1], List.mem_cons_self, rfl⟩)
  · rw [hResults]
    exact congrArg some (hFirst.inTime _ rfl (Nat.le_refl _))

end TxLoad

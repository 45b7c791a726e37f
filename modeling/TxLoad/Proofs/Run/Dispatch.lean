import Mathlib.Algebra.GroupWithZero.Nat
import Mathlib.Data.List.Forall2
import Mathlib.Logic.Relation
import TxLoad.Proofs.Run.Task

/-! # Batches whose tasks run in any order

`Dispatch` is a batch that is being handed in by its tasks. `Step` is one move of it: some task
makes a move, or time passes up to the moment at which the next task is due, or the tasks, all of
them over, are joined in the order in which they were spawned and the report is written. A task
begins at a moment of its own, up to a latest one.

However the moves follow one another, they come to an end, and not before there is a report. The
report says of each transfer, in the order of the batch, what the reaction to its own payload
amounts to. `Batch.submit` reports the same.
-/

namespace TxLoad

open Submission

variable {σ : Type}

/-- A batch that is being handed in. -/
structure Dispatch (σ : Type) where
  world : World σ
  started : Duration
  nonces : List Word64
  tasks : List Task
  report : Option BatchReport := none

/-- The batch once its tasks are spawned. -/
def Batch.dispatch (batch : Batch) (w : World σ) : Dispatch σ where
  world := { w with notices := w.notices ++ [.batchSubmitted batch.size batch.pricing] }
  started := w.now
  nonces := batch.transfers.map SignedTransfer.nonce
  tasks := batch.transfers.map fun transfer => { transfer }

namespace Dispatch

/-- The results of tasks that are joined in this order. -/
def resultsOf (nonces : List Word64) (joined : List (Except Fault (Except Rejection Hash))) :
    List SubmissionResult :=
  (nonces.zip joined).map fun (nonce, joined) => ⟨nonce, Task.settled joined⟩

def reported (d : Dispatch σ) (joined : List (Except Fault (Except Rejection Hash))) :
    BatchReport where
  results := resultsOf d.nonces joined
  elapsed := d.world.now.monus d.started

/-- The world once note is taken of a result. -/
def entered (w : World σ) (result : SubmissionResult) : World σ :=
  match result.outcome with
  | .ok hash =>
    { w with notices := w.notices ++ [.sent result.nonce hash], tally := w.tally.addSent }
  | .error rejection =>
    { w with
      notices := w.notices ++ [.rejected result.nonce rejection]
      tally := w.tally.addRejection rejection.kind }

inductive Step (network : Network σ) (limit latest : Duration) : Dispatch σ → Dispatch σ → Prop
  | work {d : Dispatch σ} {before after : List Task} {task task' : Task} {w' : World σ}
      (hTasks : d.tasks = before ++ task :: after)
      (hMove : Task.Move network limit d.world task w' task') :
      Step network limit latest d { d with world := w', tasks := before ++ task' :: after }
  | pass {d : Dispatch σ} {moment : Duration} (hLater : d.world.now.nanos < moment.nanos)
      (hUnfinished : ∃ task ∈ d.tasks, task.joined? = none)
      (hDue : ∀ task ∈ d.tasks, ∀ due, task.due? limit latest = some due →
        moment.nanos ≤ due.nanos) :
      Step network limit latest d { d with world := { d.world with now := moment } }
  | collect {d : Dispatch σ} {joined : List (Except Fault (Except Rejection Hash))}
      (hOpen : d.report = none) (hJoined : d.tasks.map Task.joined? = joined.map some) :
      Step network limit latest d
        { d with
          world := Batch.concluded (d.reported joined)
            ((d.reported joined).results.foldl entered d.world)
          report := some (d.reported joined) }

abbrev Reaches (network : Network σ) (limit latest : Duration) : Dispatch σ → Dispatch σ → Prop :=
  Relation.ReflTransGen (Step network limit latest)

/-! ## What a step keeps -/

/-- What has happened since the tasks of the batch were spawned in `w`. -/
structure Sound (react : Bytes → Option (Reply Hash)) (limit latest : Duration) (batch : Batch)
    (w : World σ) (d : Dispatch σ) : Prop where
  nonces_eq : d.nonces = batch.transfers.map SignedTransfer.nonce
  transfers_eq : d.tasks.map Task.transfer = batch.transfers
  tasks : ∀ task ∈ d.tasks, task.Sound react limit latest d.world.now
  calls : ∃ made, w.Grows made d.world ∧ (made.map Prod.snd).Perm (d.tasks.flatMap Task.made)
  warnings : ∃ told, d.world.notices = w.notices ++ told ∧
    (told.filter Notice.isHashWarning).Perm (d.tasks.flatMap Task.warnings)
  reported : ∀ report, d.report = some report → ∃ joined,
    d.tasks.map Task.joined? = joined.map some ∧ report.results = resultsOf d.nonces joined

theorem perm_flatMap_middle {α β : Type} (f : α → List β) (before after : List α) {a a' : α}
    {more : List β} (h : f a' = f a ++ more) :
    ((before ++ a :: after).flatMap f ++ more).Perm ((before ++ a' :: after).flatMap f) := by
  simp only [List.flatMap_append, List.flatMap_cons, h, List.append_assoc]
  exact (List.perm_append_comm.append_left _).append_left _

/-- Taking note of results makes no calls, takes no time and gives no warnings. -/
theorem foldl_entered (results : List SubmissionResult) (w : World σ) :
    (results.foldl entered w).cutOff = w.cutOff ∧ (results.foldl entered w).calls = w.calls ∧
      (results.foldl entered w).now = w.now ∧
      ∃ told, (results.foldl entered w).notices = w.notices ++ told ∧
        told.filter Notice.isHashWarning = [] := by
  induction results generalizing w with
  | nil => exact ⟨rfl, rfl, rfl, [], (List.append_nil _).symm, rfl⟩
  | cons result results ih =>
    obtain ⟨hCut, hCalls, hNow, told, hTold, hQuiet⟩ := ih (entered w result)
    rw [List.foldl_cons, hCut, hCalls, hNow, hTold]
    obtain ⟨nonce, rejection | hash⟩ := result
    · exact ⟨rfl, rfl, rfl, .rejected nonce rejection :: told, List.append_assoc _ _ _, hQuiet⟩
    · exact ⟨rfl, rfl, rfl, .sent nonce hash :: told, List.append_assoc _ _ _, hQuiet⟩

section Runs

variable {network : Network σ} {react : Bytes → Option (Reply Hash)} {limit latest : Duration}
  {batch : Batch} {w : World σ} {d d' : Dispatch σ}

theorem sound_dispatch (react : Bytes → Option (Reply Hash)) (limit : Duration) (batch : Batch)
    (hLatest : w.now.nanos ≤ latest.nanos) :
    (batch.dispatch w).Sound react limit latest batch w where
  nonces_eq := rfl
  transfers_eq := by
    show (batch.transfers.map fun transfer => ({ transfer } : Task)).map Task.transfer = _
    rw [List.map_map]
    exact List.map_id _
  tasks := by
    intro task hTask
    obtain ⟨transfer, _, rfl⟩ := List.mem_map.mp hTask
    exact .spawned hLatest
  calls := by
    refine ⟨[], .silent rfl rfl (Nat.le_refl _), ?_⟩
    have hNone : (batch.dispatch w).tasks.flatMap Task.made = [] := by
      simp [Batch.dispatch, Task.made]
    rw [hNone]
    exact .refl _
  warnings := by
    refine ⟨_, rfl, ?_⟩
    have hNone : (batch.dispatch w).tasks.flatMap Task.warnings = [] := by
      simp [Batch.dispatch, Task.warnings]
    rw [hNone]
    exact .refl _
  reported := by
    intro report h
    cases h

/-- A dispatch with a task that is not over has no report. -/
theorem Sound.not_reported {task : Task} {report : BatchReport}
    (h : d.Sound react limit latest batch w) (hTask : task ∈ d.tasks)
    (hUnjoined : task.joined? = none) : d.report ≠ some report := by
  intro hReport
  obtain ⟨joined, hJoined, _⟩ := h.reported report hReport
  have hMem : task.joined? ∈ joined.map some := hJoined ▸ List.mem_map_of_mem hTask
  obtain ⟨_, _, hSome⟩ := List.mem_map.mp hMem
  rw [hUnjoined] at hSome
  cases hSome

/-- After a move of one task, each task is the one that has moved or was there before. -/
theorem mem_or_mem_of_move {before after : List Task} {task task' other : Task}
    (hTasks : d.tasks = before ++ task :: after) (hOther : other ∈ before ++ task' :: after) :
    other = task' ∨ other ∈ d.tasks := by
  rw [hTasks]
  simp only [List.mem_append, List.mem_cons] at hOther ⊢
  tauto

theorem Sound.work {before after : List Task} {task task' : Task} {w' : World σ}
    (hReact : ∀ payload s, (network.submit payload s).1 = react payload)
    (h : d.Sound react limit latest batch w) (hTasks : d.tasks = before ++ task :: after)
    (hMove : Task.Move network limit d.world task w' task') :
    Sound react limit latest batch w { d with world := w', tasks := before ++ task' :: after } := by
  have hTask : task ∈ d.tasks := by
    rw [hTasks]
    exact List.mem_append_right _ List.mem_cons_self
  refine ⟨h.nonces_eq, ?_, ?_, ?_, ?_, ?_⟩
  · rw [← h.transfers_eq, hTasks]
    simp only [List.map_append, List.map_cons, hMove.transfer_eq]
  · intro other hOther
    rcases mem_or_mem_of_move hTasks hOther with rfl | hOld
    · exact (h.tasks task hTask).move hReact hMove
    · show other.Sound react limit latest w'.now
      rw [hMove.now_eq]
      exact h.tasks other hOld
  · obtain ⟨made, hMade, hPerm⟩ := h.calls
    obtain ⟨calls, hCalls, hNew⟩ := hMove.grows
    refine ⟨_, hMade.trans hCalls, ?_⟩
    rw [List.map_append, List.map_map]
    show (made.map Prod.snd ++ calls.map id).Perm _
    rw [List.map_id]
    rw [hTasks] at hPerm
    exact (hPerm.append_right calls).trans (perm_flatMap_middle Task.made before after hNew)
  · obtain ⟨told, hTold, hPerm⟩ := h.warnings
    obtain ⟨more, hMore, hNew⟩ := hMove.told
    refine ⟨told ++ more, ?_, ?_⟩
    · show w'.notices = _
      rw [hMore, hTold, List.append_assoc]
    · rw [List.filter_append]
      rw [hTasks] at hPerm
      exact (hPerm.append_right _).trans (perm_flatMap_middle Task.warnings before after hNew)
  · intro report hReport
    exact absurd hReport (h.not_reported hTask hMove.joined_eq_none)

/-- Calls are made by moves of tasks only. -/
theorem Sound.calls_of_silent {w' : World σ} (h : d.Sound react limit latest batch w)
    (hSilent : d.world.Grows [] w') :
    ∃ made, w.Grows made w' ∧ (made.map Prod.snd).Perm (d.tasks.flatMap Task.made) := by
  obtain ⟨made, hMade, hPerm⟩ := h.calls
  have hAll := hMade.trans hSilent
  rw [List.append_nil] at hAll
  exact ⟨made, hAll, hPerm⟩

theorem Sound.pass {moment : Duration} (h : d.Sound react limit latest batch w)
    (hLater : d.world.now.nanos < moment.nanos)
    (hDue : ∀ task ∈ d.tasks, ∀ due, task.due? limit latest = some due →
      moment.nanos ≤ due.nanos) :
    Sound react limit latest batch w { d with world := { d.world with now := moment } } where
  nonces_eq := h.nonces_eq
  transfers_eq := h.transfers_eq
  tasks := by
    intro task hTask
    exact (h.tasks task hTask).later (hDue task hTask)
  calls := h.calls_of_silent (.silent rfl rfl (Nat.le_of_lt hLater))
  warnings := h.warnings
  reported := h.reported

theorem Sound.collect {joined : List (Except Fault (Except Rejection Hash))}
    (h : d.Sound react limit latest batch w)
    (hJoined : d.tasks.map Task.joined? = joined.map some) :
    Sound react limit latest batch w
      { d with
        world := Batch.concluded (d.reported joined)
          ((d.reported joined).results.foldl entered d.world)
        report := some (d.reported joined) } := by
  obtain ⟨hCut, hCalls, hNow, more, hMore, hQuiet⟩ :=
    foldl_entered (d.reported joined).results d.world
  refine ⟨h.nonces_eq, h.transfers_eq, ?_, ?_, ?_, ?_⟩
  · intro task hTask
    show task.Sound react limit latest ((d.reported joined).results.foldl entered d.world).now
    rw [hNow]
    exact h.tasks task hTask
  · exact h.calls_of_silent
      (.silent hCut hCalls (Nat.le_of_eq (congrArg Duration.nanos hNow.symm)))
  · obtain ⟨told, hTold, hPerm⟩ := h.warnings
    let done : Notice := .batchDone (d.reported joined).sent (d.reported joined).failed
    refine ⟨told ++ more ++ [done], ?_, ?_⟩
    · show ((d.reported joined).results.foldl entered d.world).notices ++ [done] = _
      rw [hMore, hTold]
      simp only [List.append_assoc]
    · have hDone : [done].filter Notice.isHashWarning = [] := rfl
      rw [List.filter_append, List.filter_append, hQuiet, hDone, List.append_nil, List.append_nil]
      exact hPerm
  · intro report hReport
    cases hReport
    exact ⟨joined, hJoined, rfl⟩

theorem Sound.step (hReact : ∀ payload s, (network.submit payload s).1 = react payload)
    (h : d.Sound react limit latest batch w) (hStep : Step network limit latest d d') :
    d'.Sound react limit latest batch w := by
  cases hStep with
  | work hTasks hMove => exact h.work hReact hTasks hMove
  | pass hLater _ hDue => exact h.pass hLater hDue
  | collect _ hJoined => exact h.collect hJoined

theorem Sound.reaches (hReact : ∀ payload s, (network.submit payload s).1 = react payload)
    (h : d.Sound react limit latest batch w) (hReach : Reaches network limit latest d d') :
    d'.Sound react limit latest batch w := by
  induction hReach with
  | refl => exact h
  | tail _ hStep ih => exact ih.step hReact hStep

/-! ## Every order comes to an end -/

theorem exists_joined {tasks : List Task} (hOver : ∀ task ∈ tasks, task.joined? ≠ none) :
    ∃ joined : List (Except Fault (Except Rejection Hash)),
      tasks.map Task.joined? = joined.map some := by
  induction tasks with
  | nil => exact ⟨[], rfl⟩
  | cons task rest ih =>
    obtain ⟨joined, hJoined⟩ := ih fun other hOther => hOver other (List.mem_cons_of_mem _ hOther)
    obtain ⟨first, hFirst⟩ := Option.ne_none_iff_exists'.mp (hOver task List.mem_cons_self)
    refine ⟨first :: joined, ?_⟩
    rw [List.map_cons, List.map_cons, hFirst, hJoined]

/-- As long as there is no report, something can happen: a task moves, or none can and each that is
not over waits for a moment to come, or all are over. -/
theorem exists_step (network : Network σ) (limit latest : Duration) (hOpen : d.report = none) :
    ∃ d', Step network limit latest d d' := by
  by_cases hOver : ∀ task ∈ d.tasks, task.joined? ≠ none
  · obtain ⟨joined, hJoined⟩ := exists_joined hOver
    exact ⟨_, .collect hOpen hJoined⟩
  by_cases hMoves : ∃ task ∈ d.tasks, ∃ w' task', Task.Move network limit d.world task w' task'
  · obtain ⟨task, hTask, w', task', hMove⟩ := hMoves
    obtain ⟨before, after, hTasks⟩ := List.append_of_mem hTask
    exact ⟨_, .work hTasks hMove⟩
  have hUnfinished : ∃ task ∈ d.tasks, task.joined? = none := by
    by_contra hNot
    exact hOver fun task hTask hNone => hNot ⟨task, hTask, hNone⟩
  have hLater : d.world.now.nanos < (Duration.mk (d.world.now.nanos + 1)).nanos :=
    Nat.lt_succ_self _
  refine ⟨_, .pass hLater hUnfinished ?_⟩
  intro task hTask due hDue
  rcases Task.moves_or_waits network limit latest d.world task with hMove | hWaits
  · exact absurd ⟨task, hTask, hMove⟩ hMoves
  · exact hWaits due hDue

/-- How much is left to do: moves of tasks, moments up to the last one at which a task is due, and
the report. -/
def weight (limit latest : Duration) (d : Dispatch σ) : Nat :=
  (d.tasks.map Task.rank).sum + (latest.nanos + limit.nanos - d.world.now.nanos) +
    if d.report.isNone then 1 else 0

theorem Sound.exists_due {task : Task} (h : d.Sound react limit latest batch w)
    (hTask : task ∈ d.tasks) (hUnfinished : task.joined? = none) :
    ∃ due, task.due? limit latest = some due ∧ due.nanos ≤ latest.nanos + limit.nanos := by
  have hSound := h.tasks task hTask
  obtain ⟨transfer, stage⟩ := task
  cases stage with
  | spawned => exact ⟨_, rfl, hSound.due_le rfl⟩
  | waiting since reply => exact ⟨_, rfl, hSound.due_le rfl⟩
  | ended outcome => cases hUnfinished
  | panicked fault => cases hUnfinished

theorem Sound.weight_lt (h : d.Sound react limit latest batch w)
    (hStep : Step network limit latest d d') :
    d'.weight limit latest < d.weight limit latest := by
  unfold weight
  cases hStep with
  | work hTasks hMove =>
    have hRank := hMove.rank_eq
    rw [hTasks, hMove.now_eq]
    simp only [List.map_append, List.map_cons, List.sum_append, List.sum_cons]
    omega
  | @pass moment hLater hUnfinished hDue =>
    obtain ⟨task, hTask, hUnjoined⟩ := hUnfinished
    obtain ⟨due, hSome, hBound⟩ := h.exists_due hTask hUnjoined
    have hMoment := hDue task hTask due hSome
    dsimp only
    omega
  | @collect joined hOpen _ =>
    obtain ⟨_, _, hNow, _⟩ := foldl_entered (d.reported joined).results d.world
    have hSame : (Batch.concluded (d.reported joined)
        ((d.reported joined).results.foldl entered d.world)).now = d.world.now := hNow
    dsimp only
    rw [hSame, hOpen]
    exact Nat.lt_succ_self _

theorem Sound.terminates (hReact : ∀ payload s, (network.submit payload s).1 = react payload)
    (h : d.Sound react limit latest batch w) :
    Acc (fun later earlier => Step network limit latest earlier later) d := by
  induction hWeight : d.weight limit latest using Nat.strongRecOn generalizing d with
  | ind n ih =>
    refine .intro d fun later hStep => ?_
    have hLess := h.weight_lt hStep
    rw [hWeight] at hLess
    exact ih _ hLess (h.step hReact hStep) rfl

/-- From where a dispatch terminates, it can be led to a report. -/
theorem exists_report_of_terminates
    (h : Acc (fun later earlier => Step network limit latest earlier later) d) :
    ∃ d' report, Reaches network limit latest d d' ∧ d'.report = some report := by
  induction h with
  | intro d _ ih =>
    cases hReport : d.report with
    | some report => exact ⟨d, report, .refl, hReport⟩
    | none =>
      obtain ⟨later, hStep⟩ := exists_step network limit latest hReport
      obtain ⟨d', report, hReach, hDone⟩ := ih later hStep
      exact ⟨d', report, .head hStep hReach, hDone⟩

end Runs

end Dispatch

end TxLoad

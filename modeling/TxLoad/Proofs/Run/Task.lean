import TxLoad.Proofs.Run.Outcome

/-! # The tasks of a batch

A batch is handed in by tasks, one for each transfer. `Task.Move` is one move of one task in the
world that all of them share: it hands its payload in, or is answered, or gives up when the limit
has passed and no answer is there. A task is `Sound` if it waits no longer than it may, and if what
it has come to is what the endpoint's reaction to its own payload amounts to. A move keeps a task
sound whatever the others do, provided that the reaction depends on the payload alone.
-/

namespace TxLoad

open Submission

variable {σ : Type}

inductive Stage
  | spawned
  | waiting (since : Duration) (reply : Option (Reply Hash))
  | ended (outcome : Except Rejection Hash)
  | panicked (fault : Fault)

/-- The task of one transfer. -/
structure Task where
  transfer : SignedTransfer
  stage : Stage := .spawned

def Notice.isHashWarning : Notice → Bool
  | unexpectedHash .. => true
  | _ => false

namespace Task

/-- What a task that is over has come to; a fault is met where the task is joined. -/
def joined? (task : Task) : Option (Except Fault (Except Rejection Hash)) :=
  match task.stage with
  | .spawned | .waiting .. => none
  | .ended outcome => some (.ok outcome)
  | .panicked fault => some (.error fault)

/-- A task that a fault has ended counts as aborted. -/
def settled : Except Fault (Except Rejection Hash) → Except Rejection Hash
  | .ok outcome => outcome
  | .error fault => .error (.ofFault fault)

/-- When a task goes on, if it is not over. One that has not begun does so by `latest`. -/
def due? (limit latest : Duration) (task : Task) : Option Duration :=
  match task.stage with
  | .spawned => some latest
  | .waiting since reply => some (since.plus (waited limit reply))
  | .ended _ | .panicked _ => none

/-- The calls that a task has made. -/
def made (task : Task) : List Call :=
  match task.stage with
  | .spawned => []
  | _ => [.submit task.transfer.payload]

/-- The warnings that an outcome gives rise to. -/
def warningsOf (transfer : SignedTransfer) : Except Rejection Hash → List Notice
  | .ok hash => hashNotices transfer hash
  | .error _ => []

/-- The warnings that a task has given. -/
def warnings (task : Task) : List Notice :=
  match task.stage with
  | .ended outcome => warningsOf task.transfer outcome
  | _ => []

/-- How many moves of its own a task has before it. -/
def rank (task : Task) : Nat :=
  match task.stage with
  | .spawned => 2
  | .waiting .. => 1
  | .ended _ | .panicked _ => 0

/-- One move of a task. An answer that comes right at the limit is received. -/
inductive Move (network : Network σ) (limit : Duration) :
    World σ → Task → World σ → Task → Prop
  | handIn (w : World σ) (transfer : SignedTransfer) :
      Move network limit w ⟨transfer, .spawned⟩
        { w with
          network := (network.submit transfer.payload w.network).2
          calls := w.calls ++ [.submit transfer.payload].map fun call => (w.now, call) }
        ⟨transfer, .waiting w.now (network.submit transfer.payload w.network).1⟩
  | acknowledged {w : World σ} {transfer : SignedTransfer} {since : Duration} {reply : Reply Hash}
      {hash : Hash} (hThere : (since.plus reply.delay).nanos ≤ w.now.nanos)
      (hAnswer : reply.answer = .value hash) :
      Move network limit w ⟨transfer, .waiting since (some reply)⟩
        { w with
          network := network.acknowledge transfer.payload w.network
          notices := w.notices ++ hashNotices transfer hash }
        ⟨transfer, .ended (.ok hash)⟩
  | refused {w : World σ} {transfer : SignedTransfer} {since : Duration} {reply : Reply Hash}
      {failure : Failure} (hThere : (since.plus reply.delay).nanos ≤ w.now.nanos)
      (hAnswer : reply.answer = .failure failure) :
      Move network limit w ⟨transfer, .waiting since (some reply)⟩ w
        ⟨transfer, .ended (.error (.ofFailure failure))⟩
  | panicked {w : World σ} {transfer : SignedTransfer} {since : Duration} {reply : Reply Hash}
      {fault : Fault} (hThere : (since.plus reply.delay).nanos ≤ w.now.nanos)
      (hAnswer : reply.answer = .fault fault) :
      Move network limit w ⟨transfer, .waiting since (some reply)⟩ w ⟨transfer, .panicked fault⟩
  | gaveUp {w : World σ} {transfer : SignedTransfer} {since : Duration}
      {reply : Option (Reply Hash)} (hPassed : (since.plus limit).nanos ≤ w.now.nanos)
      (hSilent : ∀ r, reply = some r → w.now.nanos < (since.plus r.delay).nanos) :
      Move network limit w ⟨transfer, .waiting since reply⟩ w
        ⟨transfer, .ended (.error (.ofTimeout limit))⟩

section Moves

variable {network : Network σ} {limit : Duration} {w w' : World σ} {task task' : Task}

theorem Move.transfer_eq (h : Move network limit w task w' task') :
    task'.transfer = task.transfer := by
  cases h <;> rfl

theorem Move.now_eq (h : Move network limit w task w' task') : w'.now = w.now := by
  cases h <;> rfl

theorem Move.rank_eq (h : Move network limit w task w' task') : task.rank = task'.rank + 1 := by
  cases h <;> rfl

theorem Move.joined_eq_none (h : Move network limit w task w' task') : task.joined? = none := by
  cases h <;> rfl

/-- A task hands its payload in once, with its first move. -/
theorem Move.grows (h : Move network limit w task w' task') :
    ∃ calls, w.Grows (calls.map fun call => (w.now, call)) w' ∧
      task'.made = task.made ++ calls := by
  cases h with
  | handIn transfer =>
    exact ⟨[.submit transfer.payload], .of_logged rfl rfl (Nat.le_refl _), rfl⟩
  | acknowledged _ _ => exact ⟨[], .silent rfl rfl (Nat.le_refl _), rfl⟩
  | refused _ _ => exact ⟨[], .refl w, rfl⟩
  | panicked _ _ => exact ⟨[], .refl w, rfl⟩
  | gaveUp _ _ => exact ⟨[], .refl w, rfl⟩

theorem filter_hashNotices (transfer : SignedTransfer) (hash : Hash) :
    (hashNotices transfer hash).filter Notice.isHashWarning = hashNotices transfer hash := by
  unfold hashNotices
  split <;> rfl

theorem Move.told (h : Move network limit w task w' task') :
    ∃ told, w'.notices = w.notices ++ told ∧
      task'.warnings = task.warnings ++ told.filter Notice.isHashWarning := by
  cases h with
  | handIn transfer => exact ⟨[], (List.append_nil _).symm, rfl⟩
  | @acknowledged transfer since reply hash _ _ =>
    refine ⟨hashNotices transfer hash, rfl, ?_⟩
    rw [filter_hashNotices]
    rfl
  | refused _ _ => exact ⟨[], (List.append_nil _).symm, rfl⟩
  | panicked _ _ => exact ⟨[], (List.append_nil _).symm, rfl⟩
  | gaveUp _ _ => exact ⟨[], (List.append_nil _).symm, rfl⟩

end Moves

/-! ## Tasks that are sound -/

inductive Sound (react : Bytes → Option (Reply Hash)) (limit latest now : Duration) : Task → Prop
  | spawned {transfer : SignedTransfer} (hNow : now.nanos ≤ latest.nanos) :
      Sound react limit latest now ⟨transfer, .spawned⟩
  | waiting {transfer : SignedTransfer} {since : Duration} {reply : Option (Reply Hash)}
      (hReply : reply = react transfer.payload) (hSince : since.nanos ≤ latest.nanos)
      (hNow : now.nanos ≤ (since.plus (waited limit reply)).nanos) :
      Sound react limit latest now ⟨transfer, .waiting since reply⟩
  | ended {transfer : SignedTransfer} {outcome : Except Rejection Hash}
      (hAmounts : Amounts limit (react transfer.payload) outcome) :
      Sound react limit latest now ⟨transfer, .ended outcome⟩
  | panicked {transfer : SignedTransfer} {fault : Fault}
      (hAmounts : Amounts limit (react transfer.payload) (.error (.ofFault fault))) :
      Sound react limit latest now ⟨transfer, .panicked fault⟩

section Soundness

variable {react : Bytes → Option (Reply Hash)} {limit latest now : Duration}

theorem waited_le_limit (limit : Duration) (reply : Option (Reply Hash)) :
    (waited limit reply).nanos ≤ limit.nanos := by
  cases reply with
  | none => exact Nat.le_refl _
  | some reply => exact Nat.min_le_left _ _

/-- A reply that is there before the task goes on has come within the limit. -/
theorem inTime_of_there {since : Duration} {reaction : Option (Reply Hash)} {reply : Reply Hash}
    (hReply : some reply = reaction) (hThere : (since.plus reply.delay).nanos ≤ now.nanos)
    (hNow : now.nanos ≤ (since.plus (waited limit (some reply))).nanos) :
    InTime limit reaction reply := by
  refine ⟨hReply.symm, ?_⟩
  have hWaited := waited_le_limit limit (some reply)
  change since.nanos + reply.delay.nanos ≤ now.nanos at hThere
  change now.nanos ≤ since.nanos + (waited limit (some reply)).nanos at hNow
  omega

theorem overdue_of_silent {since : Duration} {reaction reply : Option (Reply Hash)}
    (hReply : reply = reaction)
    (hSilent : ∀ r, reply = some r → now.nanos < (since.plus r.delay).nanos)
    (hPassed : (since.plus limit).nanos ≤ now.nanos) : Overdue limit reaction := by
  intro r hr
  have hLate := hSilent r (hReply.trans hr)
  change since.nanos + limit.nanos ≤ now.nanos at hPassed
  change now.nanos < since.nanos + r.delay.nanos at hLate
  omega

/-- A move of a sound task leaves it sound. -/
theorem Sound.move {network : Network σ} {w w' : World σ} {task task' : Task}
    (hReact : ∀ payload s, (network.submit payload s).1 = react payload)
    (h : Sound react limit latest w.now task) (hMove : Move network limit w task w' task') :
    Sound react limit latest w'.now task' := by
  cases hMove with
  | handIn transfer =>
    cases h with
    | spawned hNow => exact .waiting (hReact _ _) hNow (Nat.le_add_right _ _)
  | acknowledged hThere hAnswer =>
    cases h with
    | waiting hReply _ hNow =>
      exact .ended (.acknowledged (inTime_of_there hReply hThere hNow) hAnswer)
  | refused hThere hAnswer =>
    cases h with
    | waiting hReply _ hNow =>
      exact .ended (.refused (inTime_of_there hReply hThere hNow) hAnswer)
  | panicked hThere hAnswer =>
    cases h with
    | waiting hReply _ hNow =>
      exact .panicked (.aborted (inTime_of_there hReply hThere hNow) hAnswer)
  | gaveUp hPassed hSilent =>
    cases h with
    | waiting hReply _ _ => exact .ended (.overdue (overdue_of_silent hReply hSilent hPassed))

/-- Time may pass as long as the task is not due. -/
theorem Sound.later {moment : Duration} {task : Task} (h : Sound react limit latest now task)
    (hDue : ∀ due, task.due? limit latest = some due → moment.nanos ≤ due.nanos) :
    Sound react limit latest moment task := by
  cases h with
  | spawned _ => exact .spawned (hDue _ rfl)
  | waiting hReply hSince _ => exact .waiting hReply hSince (hDue _ rfl)
  | ended hAmounts => exact .ended hAmounts
  | panicked hAmounts => exact .panicked hAmounts

/-- A task that begins by the latest moment is due when it has waited. -/
theorem Sound.due_le_waited {task : Task} {due : Duration}
    (h : Sound react limit latest now task) (hDue : task.due? limit latest = some due) :
    due.nanos ≤ latest.nanos + (waited limit (react task.transfer.payload)).nanos := by
  cases h with
  | spawned _ =>
    cases hDue
    exact Nat.le_add_right _ _
  | @waiting transfer since reply hReply hSince _ =>
    cases hDue
    show since.nanos + (waited limit reply).nanos ≤ _
    rw [hReply]
    exact Nat.add_le_add_right hSince _
  | ended _ => cases hDue
  | panicked _ => cases hDue

/-- A task is due at most the limit after the latest moment at which it begins. -/
theorem Sound.due_le {task : Task} {due : Duration} (h : Sound react limit latest now task)
    (hDue : task.due? limit latest = some due) : due.nanos ≤ latest.nanos + limit.nanos :=
  Nat.le_trans (h.due_le_waited hDue) (Nat.add_le_add_left (waited_le_limit limit _) _)

/-- What a sound task that is over has come to and has done. -/
theorem Sound.of_joined {task : Task} {joined : Except Fault (Except Rejection Hash)}
    (h : Sound react limit latest now task) (hJoined : task.joined? = some joined) :
    settled joined = outcome limit (react task.transfer.payload) ∧
      task.made = [.submit task.transfer.payload] ∧
      task.warnings = warningsOf task.transfer (outcome limit (react task.transfer.payload)) := by
  cases h with
  | spawned _ => cases hJoined
  | waiting _ _ _ => cases hJoined
  | @ended transfer found hAmounts =>
    cases hJoined
    refine ⟨hAmounts.outcome_eq, rfl, ?_⟩
    show warningsOf transfer found = _
    rw [hAmounts.outcome_eq]
  | panicked hAmounts =>
    cases hJoined
    refine ⟨hAmounts.outcome_eq, rfl, ?_⟩
    show [] = _
    rw [← hAmounts.outcome_eq]
    rfl

/-- A task that waits for nothing more can make a move: its answer is there, or the limit has
passed. -/
theorem moves_of_due (network : Network σ) (limit : Duration) (w : World σ)
    (transfer : SignedTransfer) {since : Duration} {reply : Option (Reply Hash)}
    (hDue : (since.plus (waited limit reply)).nanos ≤ w.now.nanos) :
    ∃ w' task', Move network limit w ⟨transfer, .waiting since reply⟩ w' task' := by
  by_cases hThere : ∃ r, reply = some r ∧ (since.plus r.delay).nanos ≤ w.now.nanos
  · obtain ⟨r, rfl, hThere⟩ := hThere
    cases hAnswer : r.answer with
    | value hash => exact ⟨_, _, .acknowledged hThere hAnswer⟩
    | failure failure => exact ⟨_, _, .refused hThere hAnswer⟩
    | fault fault => exact ⟨_, _, .panicked hThere hAnswer⟩
  · have hSilent : ∀ r, reply = some r → w.now.nanos < (since.plus r.delay).nanos := by
      intro r hr
      exact Nat.lt_of_not_le fun h => hThere ⟨r, hr, h⟩
    refine ⟨_, _, .gaveUp ?_ hSilent⟩
    change since.nanos + (waited limit reply).nanos ≤ w.now.nanos at hDue
    show since.nanos + limit.nanos ≤ w.now.nanos
    cases reply with
    | none => exact hDue
    | some r =>
      have hLate := hSilent r rfl
      change w.now.nanos < since.nanos + r.delay.nanos at hLate
      change since.nanos + min limit.nanos r.delay.nanos ≤ w.now.nanos at hDue
      omega

theorem moves_or_waits (network : Network σ) (limit latest : Duration) (w : World σ) (task : Task) :
    (∃ w' task', Move network limit w task w' task') ∨
      ∀ due, task.due? limit latest = some due → w.now.nanos < due.nanos := by
  obtain ⟨transfer, stage⟩ := task
  cases stage with
  | spawned => exact .inl ⟨_, _, .handIn w transfer⟩
  | waiting since reply =>
    by_cases hDue : w.now.nanos < (since.plus (waited limit reply)).nanos
    · right
      intro due h
      cases h
      exact hDue
    · exact .inl (moves_of_due network limit w transfer (Nat.not_lt.mp hDue))
  | ended outcome =>
    right
    intro due h
    cases h
  | panicked fault =>
    right
    intro due h
    cases h

end Soundness

end Task

end TxLoad

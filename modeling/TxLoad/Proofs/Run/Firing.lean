import Mathlib.Data.List.Chain
import TxLoad.Proofs.Run.Calls
import TxLoad.Proofs.SlotTime
import TxLoad.Run.Timetable

/-! # When the cycles of a timetable are run

`Course` is the course of a timetable: which cycles are run, in which world each wait begins and
ends, and what each cycle comes to. With a clock that follows the time that has passed, and cycles
that take whole milliseconds, every cycle is run exactly at the least start of its slot after the
end of the cycle before it. Cycles that succeed within a limit are all run, each target taking an
epoch and the limit at most.
-/

namespace TxLoad

variable {σ β : Type}

/-- One run of a cycle: its wait begins in `begun`, and the cycle is run in `fired`. -/
structure Firing (σ β : Type) where
  target : Target
  begun : World σ
  fired : World σ
  outcome : Except Stop β
  ended : World σ

namespace Timetable

/-- From the first world on, the targets are waited for and their cycles run, until none is left,
one fails, or one cannot be waited for. -/
inductive Course (clock : Clock) (cycle : Target → Act σ β) (genesis : Word64) :
    World σ → List Target → List (Firing σ β) → Except Stop Unit → World σ → Prop
  | finished (w : World σ) : Course clock cycle genesis w [] [] (.ok ()) w
  | unscheduled {target : Target} {rest : List Target} {w w' : World σ} {s : Stop}
      (hWait : (nextWait clock genesis target).Stops w s w') :
      Course clock cycle genesis w (target :: rest) [] (.error s) w'
  | cut {target : Target} {rest : List Target} {wait : Duration} {s : Stop} {w read w' : World σ}
      (hWait : (nextWait clock genesis target).Returns w wait read)
      (hAwait : (await target wait).Stops read s w') :
      Course clock cycle genesis w (target :: rest) [] (.error s) w'
  | failed {target : Target} {rest : List Target} {wait : Duration} {s : Stop}
      {w read fired ended : World σ}
      (hWait : (nextWait clock genesis target).Returns w wait read)
      (hAwait : (await target wait).Returns read () fired)
      (hCycle : (fire cycle target).Stops fired s ended) :
      Course clock cycle genesis w (target :: rest) [⟨target, w, fired, .error s, ended⟩]
        (.error s) ended
  | fired {target : Target} {rest : List Target} {wait : Duration} {result : β}
      {w read fired ended w' : World σ} {firings : List (Firing σ β)} {outcome : Except Stop Unit}
      (hWait : (nextWait clock genesis target).Returns w wait read)
      (hAwait : (await target wait).Returns read () fired)
      (hCycle : (fire cycle target).Returns fired result ended)
      (hRest : Course clock cycle genesis ended rest firings outcome w') :
      Course clock cycle genesis w (target :: rest)
        (⟨target, w, fired, .ok result, ended⟩ :: firings) outcome w'

/-- The run of a timetable has a course, and its results are those of the cycles. -/
theorem runFrom_course (clock : Clock) (cycle : Target → Act σ β) (genesis : Word64)
    (passed targets : List Target) (phase : Phase) (w : World σ) {r : Except Stop (List β)}
    {t : Timetable} {w' : World σ}
    (hRun : runFrom clock cycle genesis passed targets phase w = ((r, t), w')) :
    ∃ firings, Course clock cycle genesis w targets firings (r.map fun _ => ()) w' ∧
      ∀ results, r = .ok results →
        firings.map Firing.target = targets ∧ firings.map Firing.outcome = results.map .ok := by
  induction targets generalizing passed phase w r t with
  | nil =>
    cases hRun
    refine ⟨[], .finished _, fun results h => ?_⟩
    cases h
    exact ⟨rfl, rfl⟩
  | cons target rest ih =>
    rcases hWait : nextWait clock genesis target w with ⟨s | wait, read⟩
    · simp only [runFrom, hWait] at hRun
      cases hRun
      exact ⟨[], .unscheduled hWait, fun _ h => by cases h⟩
    rcases hAwait : await target wait read with ⟨s | _, fired⟩
    · simp only [runFrom, hWait, hAwait] at hRun
      cases hRun
      exact ⟨[], .cut hWait hAwait, fun _ h => by cases h⟩
    rcases hCycle : fire cycle target fired with ⟨s | result, ended⟩
    · simp only [runFrom, hWait, hAwait, hCycle] at hRun
      cases hRun
      exact ⟨_, .failed hWait hAwait hCycle, fun _ h => by cases h⟩
    rcases hRest : runFrom clock cycle genesis (passed ++ [target]) rest .idle ended with
      ⟨⟨others, u⟩, v⟩
    simp only [runFrom, hWait, hAwait, hCycle, hRest] at hRun
    cases hRun
    obtain ⟨firings, hCourse, hResults⟩ := ih _ _ _ hRest
    refine ⟨⟨target, w, fired, .ok result, ended⟩ :: firings, ?_, ?_⟩
    · have hSame : (others.map (result :: ·)).map (fun _ => ()) = others.map fun _ => () := by
        cases others <;> rfl
      rw [hSame]
      exact .fired hWait hAwait hCycle hCourse
    · intro results h
      cases others with
      | error s => cases h
      | ok more =>
        cases h
        obtain ⟨hTargets, hOutcomes⟩ := hResults more rfl
        rw [List.map_cons, List.map_cons, List.map_cons, hTargets, hOutcomes]
        exact ⟨rfl, rfl⟩

/-! ## A clock that follows the time -/

/-- The clock shows `base` when no time has passed. -/
def steadyClock (base : Nat) : Clock := fun _ passed => (base + passed.millis : Nat)

/-- What a steady clock shows in a world. -/
def instant (base : Nat) (w : World σ) : Nat := base + w.now.millis

/-- The world is not cut off, and whole milliseconds have passed. -/
structure OnTime (w : World σ) : Prop where
  isOpen : w.cutOff = none
  whole : ∃ millis, w.now = .ofMillis millis

/-- The cycles take whole milliseconds, whatever they come to. -/
def Steady (cycle : Target → Act σ β) : Prop :=
  ∀ (target : Target) (w : World σ), w.cutOff = none →
    (cycle target w).2.cutOff = none ∧
      ∃ millis, (cycle target w).2.now = w.now.plus (.ofMillis millis)

/-- The cycles succeed within `limit` milliseconds. -/
def Prompt (limit : Nat) (cycle : Target → Act σ β) : Prop :=
  ∀ (target : Target) (w : World σ), w.cutOff = none →
    ∃ result w', (cycle target).Returns w result w' ∧ w'.cutOff = none ∧
      w.now.nanos ≤ w'.now.nanos ∧
      w'.now.nanos ≤ w.now.nanos + (Duration.ofMillis limit).nanos

/-- After whole milliseconds, a steady clock shows as many more. -/
theorem instant_of_plus {w w' : World σ} {millis : Nat}
    (hNow : w'.now = w.now.plus (.ofMillis millis)) (base : Nat) :
    instant base w' = instant base w + millis := by
  unfold instant
  rw [hNow]
  show base + (w.now.nanos + millis * 1000000) / 1000000 = base + w.now.nanos / 1000000 + millis
  omega

theorem instant_mono {base : Nat} {w w' : World σ} (h : w.now.nanos ≤ w'.now.nanos) :
    instant base w ≤ instant base w' :=
  Nat.add_le_add_left (Nat.div_le_div_right h) base

theorem instant_le_add {w w' : World σ} {limit : Nat}
    (h : w'.now.nanos ≤ w.now.nanos + (Duration.ofMillis limit).nanos) (base : Nat) :
    instant base w' ≤ instant base w + limit := by
  have hLater : instant base (w.later (.ofMillis limit)) = instant base w + limit :=
    instant_of_plus rfl base
  exact hLater ▸ instant_mono h

theorem OnTime.later {w w' : World σ} {millis : Nat} (h : OnTime w) (hOpen : w'.cutOff = none)
    (hNow : w'.now = w.now.plus (.ofMillis millis)) :
    OnTime w' ∧ ∀ base, instant base w' = instant base w + millis := by
  obtain ⟨before, hBefore⟩ := h.whole
  have hAfter : w'.now = .ofMillis (before + millis) := by
    rw [hNow, hBefore]
    exact congrArg Duration.mk (Nat.add_mul _ _ _).symm
  exact ⟨⟨hOpen, _, hAfter⟩, instant_of_plus hNow⟩

theorem nextWait_steadyClock (base : Nat) (genesis : Word64) (target : Target) (w : World σ) :
    nextWait (steadyClock base) genesis target w =
      (match SlotTime.waitUntil (BitVec.ofNat 64 (instant base w)) genesis target with
        | .ok wait => .ok wait
        | .error f => .error (.fault f), { w with readings := w.readings + 1 }) := by
  unfold nextWait
  rw [Act.bind_apply]
  show (Act.ofFault (SlotTime.waitUntil (BitVec.ofNat 64 (instant base w)) genesis target) :
    Act σ Duration) { w with readings := w.readings + 1 } = _
  cases SlotTime.waitUntil (BitVec.ofNat 64 (instant base w)) genesis target <;> rfl

theorem keeps_nextWait {γ : Type} (view : World σ → γ)
    (hRead : ∀ w readings, view { w with readings := readings } = view w) (clock : Clock)
    (genesis : Word64) (target : Target) :
    Act.Keeps view (nextWait clock genesis target : Act σ Duration) :=
  Act.keeps_bind (fun w => hRead w _) fun _ => Act.keeps_ofFault _

theorem keeps_await {γ : Type} (view : World σ → γ) {target : Target} {wait : Duration}
    (hCount : ∀ w, view { w with tally := w.tally.setSlotWait wait.inSeconds } = view w)
    (hNotice : Act.Keeps view
      (Act.notice (.slotAwaited target.toNat wait.inSeconds) : Act σ Unit))
    (hNow : ∀ w now, view { w with now := now } = view w) :
    Act.Keeps view (await target wait : Act σ Unit) := by
  refine Act.keeps_bind (Act.keeps_modify hCount) fun _ => ?_
  exact Act.keeps_bind hNotice fun _ => Act.keeps_sleep _ hNow

theorem returns_await {target : Target} {wait : Duration} {w w' : World σ}
    (h : (await target wait).Returns w () w') (hOpen : w.cutOff = none) :
    w'.cutOff = none ∧ w'.now = w.now.plus wait := by
  obtain ⟨_, u, hCount, h⟩ := Act.returns_bind.mp h
  have hu := Act.returns_count.mp hCount
  obtain ⟨_, v, hNotice, h⟩ := Act.returns_bind.mp h
  have hv := Act.returns_notice.mp hNotice
  rw [hu] at hv
  have hLater := (Act.returns_sleep (show v.cutOff = none by rw [hv]; exact hOpen)).mp h
  rw [hLater, hv]
  exact ⟨hOpen, rfl⟩

theorem not_stops_await {target : Target} {wait : Duration} {w w' : World σ} {s : Stop}
    (hOpen : w.cutOff = none) : ¬ (await target wait).Stops w s w' := by
  intro h
  rcases Act.stops_bind.mp h with hCount | ⟨_, u, hCount, h⟩
  · exact Act.not_stops_count hCount
  have hu := Act.returns_count.mp hCount
  rcases Act.stops_bind.mp h with hNotice | ⟨_, v, hNotice, h⟩
  · exact Act.not_stops_notice hNotice
  have hv := Act.returns_notice.mp hNotice
  rw [hu] at hv
  exact Act.not_stops_sleep (show v.cutOff = none by rw [hv]; exact hOpen) h

theorem open_read {clock : Clock} {genesis : Word64} {target : Target} {wait : Duration}
    {w read : World σ} (hOpen : w.cutOff = none)
    (hWait : (nextWait clock genesis target).Returns w wait read) : read.cutOff = none :=
  ((keeps_nextWait World.cutOff (fun _ _ => rfl) clock genesis target).of_returns hWait).trans hOpen

/-- There is no wait only where a start lies beyond the range of a word. -/
theorem stops_nextWait_steadyClock {base : Nat} {genesis : Word64} {target : Target} {s : Stop}
    {w w' : World σ} (hWait : (nextWait (steadyClock base) genesis target).Stops w s w') :
    s = .fault .addOverflow ∧ w' = { w with readings := w.readings + 1 } ∧
      (BitVec.ofNat 64 (instant base w)).toNat / 1000 < genesis.toNat ∧
      2 ^ 64 ≤ genesis.toNat + 12 * 31 := by
  have hRead := (nextWait_steadyClock base genesis target w).symm.trans hWait
  cases hUntil : SlotTime.waitUntil (BitVec.ofNat 64 (instant base w)) genesis target with
  | ok d =>
    rw [hUntil] at hRead
    cases hRead
  | error f =>
    rw [hUntil] at hRead
    cases hRead
    obtain ⟨hBefore, rfl, hOut⟩ := SlotTime.waitUntil_eq_error_iff.mp hUntil
    exact ⟨rfl, rfl, hBefore, by omega⟩

/-- A wait takes the whole milliseconds that were computed for it. -/
theorem waited {base : Nat} {genesis : Word64} {target : Target} {wait : Duration}
    {w read fired : World σ} (hOpen : w.cutOff = none)
    (hWait : (nextWait (steadyClock base) genesis target).Returns w wait read)
    (hAwait : (await target wait).Returns read () fired) :
    fired.cutOff = none ∧ ∃ millis, fired.now = w.now.plus (.ofMillis millis) ∧
      SlotTime.Wait (BitVec.ofNat 64 (instant base w)) genesis target millis := by
  have hRead := (nextWait_steadyClock base genesis target w).symm.trans hWait
  cases hUntil : SlotTime.waitUntil (BitVec.ofNat 64 (instant base w)) genesis target with
  | error f =>
    rw [hUntil] at hRead
    cases hRead
  | ok d =>
    rw [hUntil] at hRead
    cases hRead
    obtain ⟨millis, hGiven⟩ := SlotTime.wait_of_waitUntil_eq_ok hUntil
    obtain rfl := Except.ok.inj (hUntil.symm.trans hGiven.given)
    obtain ⟨hFired, hNow⟩ := returns_await hAwait hOpen
    exact ⟨hFired, millis, hNow, hGiven⟩

/-- A wait that begins on time ends on time. -/
theorem awaited {base : Nat} {genesis : Word64} {target : Target} {wait : Duration}
    {w read fired : World σ} (hTime : OnTime w)
    (hWait : (nextWait (steadyClock base) genesis target).Returns w wait read)
    (hAwait : (await target wait).Returns read () fired) :
    OnTime fired ∧ ∃ millis, instant base fired = instant base w + millis := by
  obtain ⟨hOpen, millis, hNow, _⟩ := waited hTime.isOpen hWait hAwait
  exact ⟨(hTime.later hOpen hNow).1, millis, instant_of_plus hNow base⟩

/-- A wait ends at the least start of the slot after its beginning. -/
theorem fired_isLeast {base : Nat} {genesis : Word64} {target : Target} {wait : Duration}
    {w read fired : World σ} (hOpen : w.cutOff = none) (hRange : instant base w < 2 ^ 64)
    (hWait : (nextWait (steadyClock base) genesis target).Returns w wait read)
    (hAwait : (await target wait).Returns read () fired) :
    IsLeast (SlotTime.startsAfter (instant base w) genesis.toNat target) (instant base fired) := by
  obtain ⟨_, millis, hNow, hGiven⟩ := waited hOpen hWait hAwait
  have hLeast := hGiven.least
  rw [BitVec.toNat_ofNat, Nat.mod_eq_of_lt hRange] at hLeast
  rw [instant_of_plus hNow base]
  exact hLeast

/-- Once the first epoch has begun, a wait takes an epoch at most. -/
theorem instant_fired_le {base : Nat} {genesis : Word64} {target : Target} {wait : Duration}
    {w read fired : World σ} (hOpen : w.cutOff = none)
    (hGenesis : genesis.toNat ≤ instant base w / 1000) (hRange : instant base w < 2 ^ 64)
    (hWait : (nextWait (steadyClock base) genesis target).Returns w wait read)
    (hAwait : (await target wait).Returns read () fired) :
    instant base w ≤ instant base fired ∧ instant base fired ≤ instant base w + 384000 := by
  obtain ⟨_, millis, hNow, hGiven⟩ := waited hOpen hWait hAwait
  have hEpoch := hGiven.le_epoch
  rw [BitVec.toNat_ofNat, Nat.mod_eq_of_lt hRange] at hEpoch
  rw [instant_of_plus hNow base]
  exact ⟨Nat.le_add_right _ _, Nat.add_le_add_left (hEpoch hGenesis) _⟩

/-- A cycle that is run on time ends on time, and not before it is run. -/
theorem ended_onTime {cycle : Target → Act σ β} {target : Target} {fired ended : World σ}
    {outcome : Except Stop β} (hCycle : Steady cycle) (hTime : OnTime fired)
    (h : fire cycle target fired = (outcome, ended)) :
    OnTime ended ∧ ∀ base, instant base fired ≤ instant base ended := by
  have hEnded : (fire cycle target fired).2 = ended := congrArg Prod.snd h
  obtain ⟨hOpen, millis, hNow⟩ :=
    hCycle target { fired with notices := fired.notices ++ [.slotReached target.toNat] }
      hTime.isOpen
  change (fire cycle target fired).2.cutOff = none at hOpen
  change (fire cycle target fired).2.now = fired.now.plus _ at hNow
  rw [hEnded] at hOpen hNow
  obtain ⟨hLater, hInstant⟩ := hTime.later hOpen hNow
  exact ⟨hLater, fun base => by rw [hInstant base]; exact Nat.le_add_right _ _⟩

end Timetable

/-- The cycle is run, to the nanosecond, at the least start of its slot after the beginning of its
wait. -/
structure Firing.Punctual (base genesis : Nat) (firing : Firing σ β) : Prop where
  onTime : Timetable.OnTime firing.fired
  least : IsLeast (SlotTime.startsAfter (Timetable.instant base firing.begun) genesis firing.target)
    (Timetable.instant base firing.fired)
  ended : Timetable.instant base firing.fired ≤ Timetable.instant base firing.ended

namespace Timetable

/-- Each wait begins where the cycle before it ended. -/
def Consecutive : World σ → List (Firing σ β) → Prop
  | _, [] => True
  | w, firing :: rest => firing.begun = w ∧ Consecutive firing.ended rest

namespace Course

variable {base : Nat} {cycle : Target → Act σ β} {genesis : Word64} {targets : List Target}
  {firings : List (Firing σ β)} {outcome : Except Stop Unit} {w w' : World σ}

theorem instant_le (h : Course (steadyClock base) cycle genesis w targets firings outcome w')
    (hCycle : Steady cycle) (hTime : OnTime w) : instant base w ≤ instant base w' := by
  induction h with
  | finished w => exact Nat.le_refl _
  | unscheduled hWait =>
    obtain ⟨_, rfl, _⟩ := stops_nextWait_steadyClock hWait
    exact Nat.le_refl _
  | cut hWait hAwait => exact absurd hAwait (not_stops_await (open_read hTime.isOpen hWait))
  | failed hWait hAwait hFire =>
    obtain ⟨hFired, millis, hInstant⟩ := awaited hTime hWait hAwait
    have hEnded := (ended_onTime hCycle hFired hFire).2 base
    omega
  | fired hWait hAwait hFire hRest ih =>
    obtain ⟨hFired, millis, hInstant⟩ := awaited hTime hWait hAwait
    obtain ⟨hEnded, hLe⟩ := ended_onTime hCycle hFired hFire
    have hLater := ih hEnded
    have hFire := hLe base
    omega

theorem targets_prefix {clock : Clock}
    (h : Course clock cycle genesis w targets firings outcome w') :
    firings.map Firing.target <+: targets := by
  induction h with
  | finished => exact List.prefix_rfl
  | unscheduled => exact List.nil_prefix
  | cut => exact List.nil_prefix
  | failed => exact ⟨_, rfl⟩
  | fired _ _ _ _ ih => exact List.cons_prefix_cons.mpr ⟨rfl, ih⟩

theorem consecutive {clock : Clock}
    (h : Course clock cycle genesis w targets firings outcome w') : Consecutive w firings := by
  induction h with
  | finished => trivial
  | unscheduled => trivial
  | cut => trivial
  | failed => exact ⟨rfl, trivial⟩
  | fired _ _ _ _ ih => exact ⟨rfl, ih⟩

/-- Every cycle is run at the least start of its slot after the beginning of its wait. -/
theorem punctual (h : Course (steadyClock base) cycle genesis w targets firings outcome w')
    (hCycle : Steady cycle) (hTime : OnTime w) (hRange : instant base w' < 2 ^ 64) :
    ∀ firing ∈ firings, firing.Punctual base genesis.toNat := by
  induction h with
  | finished => simp
  | unscheduled => simp
  | cut => simp
  | failed hWait hAwait hFire =>
    obtain ⟨hFired, millis, hInstant⟩ := awaited hTime hWait hAwait
    have hEnded := (ended_onTime hCycle hFired hFire).2 base
    have hLeast := fired_isLeast hTime.isOpen (by omega) hWait hAwait
    intro firing hMem
    obtain rfl := List.mem_singleton.mp hMem
    exact ⟨hFired, hLeast, hEnded⟩
  | fired hWait hAwait hFire hRest ih =>
    obtain ⟨hFired, millis, hInstant⟩ := awaited hTime hWait hAwait
    obtain ⟨hEnded, hLe⟩ := ended_onTime hCycle hFired hFire
    have hLast := hRest.instant_le hCycle hEnded
    have hCycleLe := hLe base
    have hLeast := fired_isLeast hTime.isOpen (by omega) hWait hAwait
    intro firing hMem
    rcases List.mem_cons.mp hMem with rfl | hMem
    · exact ⟨hFired, hLeast, hCycleLe⟩
    · exact ih hEnded hRange firing hMem

/-- A course that stops early does so with a cycle, or because a start lies beyond the range of a
word. -/
theorem stop_cases (h : Course (steadyClock base) cycle genesis w targets firings outcome w')
    (hCycle : Steady cycle) (hTime : OnTime w) {s : Stop} (hStop : outcome = .error s) :
    (∃ firing ∈ firings, firing.outcome = .error s) ∨
      (s = .fault .addOverflow ∧ 2 ^ 64 ≤ genesis.toNat + 12 * 31) := by
  induction h with
  | finished => cases hStop
  | unscheduled hWait =>
    cases hStop
    obtain ⟨hFault, _, _, hOut⟩ := stops_nextWait_steadyClock hWait
    exact .inr ⟨hFault, hOut⟩
  | cut hWait hAwait => exact absurd hAwait (not_stops_await (open_read hTime.isOpen hWait))
  | failed hWait hAwait hFire =>
    cases hStop
    exact .inl ⟨_, List.mem_cons_self, rfl⟩
  | fired hWait hAwait hFire hRest ih =>
    obtain ⟨hFired, _⟩ := awaited hTime hWait hAwait
    obtain ⟨hEnded, _⟩ := ended_onTime hCycle hFired hFire
    rcases ih hEnded hStop with ⟨firing, hMem, hOutcome⟩ | hRange
    · exact .inl ⟨firing, List.mem_cons_of_mem _ hMem, hOutcome⟩
    · exact .inr hRange

/-- Cycles that succeed within a limit are all run, once the first epoch has begun, and each target
takes an epoch and the limit at most. -/
theorem completes {limit : Nat}
    (h : Course (steadyClock base) cycle genesis w targets firings outcome w')
    (hCycle : Prompt limit cycle) (hOpen : w.cutOff = none)
    (hGenesis : genesis.toNat ≤ instant base w / 1000)
    (hRange : instant base w + targets.length * (384000 + limit) < 2 ^ 64) :
    outcome = .ok () ∧ instant base w' ≤ instant base w + targets.length * (384000 + limit) := by
  induction h with
  | finished w => exact ⟨rfl, Nat.le_add_right _ _⟩
  | unscheduled hWait =>
    obtain ⟨_, _, hBefore, _⟩ := stops_nextWait_steadyClock hWait
    rw [BitVec.toNat_ofNat, Nat.mod_eq_of_lt (by omega)] at hBefore
    exact absurd hGenesis (Nat.not_le.mpr hBefore)
  | cut hWait hAwait => exact absurd hAwait (not_stops_await (open_read hOpen hWait))
  | @failed target _ _ s w _ fired ended hWait hAwait hFire =>
    obtain ⟨hFired, _⟩ := waited hOpen hWait hAwait
    obtain ⟨_, _, hReturns, _⟩ := hCycle target
      { fired with notices := fired.notices ++ [.slotReached target.toNat] } hFired
    exact absurd hFire hReturns.not_stops
  | @fired target rest _ result w _ fired ended w' _ _ hWait hAwait hFire hRest ih =>
    obtain ⟨hFired, _⟩ := waited hOpen hWait hAwait
    obtain ⟨hLater, hEpoch⟩ := instant_fired_le hOpen hGenesis (by omega) hWait hAwait
    obtain ⟨_, _, hReturns, hEnded, hFrom, hLimit⟩ := hCycle target
      { fired with notices := fired.notices ++ [.slotReached target.toNat] } hFired
    obtain ⟨_, rfl⟩ := Act.Returns.unique hFire hReturns
    have hMono : instant base fired ≤ instant base ended := instant_mono hFrom
    have hWithin : instant base ended ≤ instant base fired + limit := instant_le_add hLimit base
    rw [List.length_cons, Nat.succ_mul] at hRange ⊢
    obtain ⟨hOk, hRest⟩ := ih hEnded (by omega) (by omega)
    exact ⟨hOk, by omega⟩

end Course

/-! ## What follows for the moments of the cycles -/

section Moments

variable {base genesis : Nat} {w : World σ} {first : Firing σ β} {firings : List (Firing σ β)}

theorem instant_lt_fired (hConsecutive : Consecutive w firings)
    (hPunctual : ∀ firing ∈ firings, firing.Punctual base genesis) :
    ∀ firing ∈ firings, instant base w < instant base firing.fired := by
  induction firings generalizing w with
  | nil => simp
  | cons first rest ih =>
    obtain ⟨rfl, hRest⟩ := hConsecutive
    have hFirst := hPunctual first List.mem_cons_self
    have hAfter := hFirst.least.1.1
    have hEnded := hFirst.ended
    intro firing hMem
    rcases List.mem_cons.mp hMem with rfl | hMem
    · exact hAfter
    · have hLater := ih hRest (fun f hf => hPunctual f (List.mem_cons_of_mem _ hf)) firing hMem
      omega

/-- The cycles are run one after the other. -/
theorem pairwise_fired_lt (hConsecutive : Consecutive w firings)
    (hPunctual : ∀ firing ∈ firings, firing.Punctual base genesis) :
    firings.Pairwise fun f g => instant base f.fired < instant base g.fired := by
  induction firings generalizing w with
  | nil => exact .nil
  | cons first rest ih =>
    obtain ⟨rfl, hRest⟩ := hConsecutive
    have hOthers : ∀ firing ∈ rest, firing.Punctual base genesis :=
      fun f hf => hPunctual f (List.mem_cons_of_mem _ hf)
    have hEnded := (hPunctual first List.mem_cons_self).ended
    refine .cons ?_ (ih hRest hOthers)
    intro firing hMem
    exact Nat.lt_of_le_of_lt hEnded (instant_lt_fired hRest hOthers firing hMem)

/-- A target that comes again is run in a later epoch. -/
theorem pairwise_epoch_lt (hConsecutive : Consecutive w firings)
    (hPunctual : ∀ firing ∈ firings, firing.Punctual base genesis) :
    firings.Pairwise fun f g => f.target.toNat % 32 = g.target.toNat % 32 →
      SlotTime.epochOf genesis (instant base f.fired) <
        SlotTime.epochOf genesis (instant base g.fired) := by
  refine (pairwise_fired_lt hConsecutive hPunctual).imp_of_mem ?_
  intro f g hf hg hLess hSame
  obtain ⟨_, epoch, hStart⟩ := (hPunctual f hf).least.1
  obtain ⟨_, next, hNext⟩ := (hPunctual g hg).least.1
  have hMoved : SlotTime.start genesis f.target epoch = SlotTime.start genesis g.target epoch := by
    unfold SlotTime.start
    rw [hSame]
  rw [hStart, hNext, hMoved] at hLess
  rw [hStart, hNext, SlotTime.epochOf_start, SlotTime.epochOf_start]
  exact SlotTime.start_lt_start_iff.mp hLess

/-- Where every cycle ends before the next slot of the first cycle's epoch, all are run in that
epoch. -/
theorem epochOf_fired_eq {epoch : Nat} (hConsecutive : Consecutive w (first :: firings))
    (hPunctual : ∀ firing ∈ first :: firings, firing.Punctual base genesis)
    (hEpoch : SlotTime.epochOf genesis (instant base first.fired) = epoch)
    (hBefore : (first :: firings).IsChain fun f g =>
      instant base f.ended < SlotTime.start genesis g.target epoch) :
    ∀ firing ∈ first :: firings, SlotTime.epochOf genesis (instant base firing.fired) = epoch := by
  induction firings generalizing first w with
  | nil =>
    intro firing hMem
    obtain rfl := List.mem_singleton.mp hMem
    exact hEpoch
  | cons next rest ih =>
    obtain ⟨_, hNextBegun, hRest⟩ := hConsecutive
    obtain ⟨hEnd, hChain⟩ := List.isChain_cons_cons.mp hBefore
    have hOthers : ∀ firing ∈ next :: rest, firing.Punctual base genesis :=
      fun f hf => hPunctual f (List.mem_cons_of_mem _ hf)
    have hFirst := hPunctual first List.mem_cons_self
    have hNext := hOthers next List.mem_cons_self
    have hSame : SlotTime.epochOf genesis (instant base next.fired) = epoch := by
      obtain ⟨_, reached, hStart⟩ := hFirst.least.1
      obtain ⟨hAfter, landed, hLanded⟩ := hNext.least.1
      rw [hStart, SlotTime.epochOf_start] at hEpoch
      rw [hNextBegun] at hAfter
      -- the start in the epoch of the first cycle is still to come, so the wait does not pass it
      have hNotLater : instant base next.fired ≤ SlotTime.start genesis next.target epoch :=
        hNext.least.2 ⟨by rw [hNextBegun]; exact hEnd, epoch, rfl⟩
      have hEnded := hFirst.ended
      rw [hLanded] at hNotLater hAfter ⊢
      rw [hStart, hEpoch] at hEnded
      rw [SlotTime.epochOf_start]
      unfold SlotTime.start at hNotLater hAfter hEnded
      omega
    intro firing hMem
    rcases List.mem_cons.mp hMem with rfl | hMem
    · exact hEpoch
    · exact ih ⟨rfl, hRest⟩ hOthers hSame hChain firing hMem

end Moments

/-- With a clock that follows the time, every cycle of a run is run exactly at the least start of
its slot after the end of the cycle before it, or after the beginning of the run. A run that stops
early does so with a cycle, or because a start lies out of range. The moments of the cycles
increase, a target that comes again is run in a later epoch, and cycles that each end before the
next target's slot in the epoch of the first are all run in that epoch. -/
theorem run_fires_on_slots {base : Nat} {cycle : Target → Act σ β} {t t' : Timetable}
    {w w' : World σ} {r : Except Stop (List β)} (hCycle : Steady cycle) (hTime : OnTime w)
    (hRun : t.run (steadyClock base) cycle w = ((r, t'), w')) (hRange : instant base w' < 2 ^ 64) :
    ∃ firings, Course (steadyClock base) cycle t.genesis w t.remaining firings
        (r.map fun _ => ()) w' ∧
      (∀ results, r = .ok results → firings.map Firing.target = t.remaining ∧
        firings.map Firing.outcome = results.map .ok) ∧
      (∀ s, r = .error s → (∃ firing ∈ firings, firing.outcome = .error s) ∨
        (s = .fault .addOverflow ∧ 2 ^ 64 ≤ t.genesis.toNat + 12 * 31)) ∧
      firings.map Firing.target <+: t.remaining ∧ Consecutive w firings ∧
      (∀ firing ∈ firings, OnTime firing.fired ∧
        IsLeast (SlotTime.startsAfter (instant base firing.begun) t.genesis.toNat firing.target)
          (instant base firing.fired)) ∧
      (firings.Pairwise fun f g => instant base f.fired < instant base g.fired) ∧
      (firings.Pairwise fun f g => f.target.toNat % 32 = g.target.toNat % 32 →
        SlotTime.epochOf t.genesis.toNat (instant base f.fired) <
          SlotTime.epochOf t.genesis.toNat (instant base g.fired)) ∧
      ∀ first rest, firings = first :: rest →
        (firings.IsChain fun f g => instant base f.ended <
          SlotTime.start t.genesis.toNat g.target
            (SlotTime.epochOf t.genesis.toNat (instant base first.fired))) →
        ∀ firing ∈ firings, SlotTime.epochOf t.genesis.toNat (instant base firing.fired) =
          SlotTime.epochOf t.genesis.toNat (instant base first.fired) := by
  obtain ⟨firings, hCourse, hResults⟩ :=
    runFrom_course (steadyClock base) cycle t.genesis t.passed t.remaining t.phase w hRun
  have hConsecutive := hCourse.consecutive
  have hPunctual := hCourse.punctual hCycle hTime hRange
  refine ⟨firings, hCourse, hResults, ?_, hCourse.targets_prefix, hConsecutive,
    fun firing hMem => ⟨(hPunctual firing hMem).onTime, (hPunctual firing hMem).least⟩,
    pairwise_fired_lt hConsecutive hPunctual, pairwise_epoch_lt hConsecutive hPunctual, ?_⟩
  · rintro s rfl
    exact hCourse.stop_cases hCycle hTime rfl
  · rintro first rest rfl hBefore
    exact epochOf_fired_eq hConsecutive hPunctual rfl hBefore

/-- Two cycles of thirteen seconds, for neighbouring slots. -/
def neighbours : Timetable := .new 100 [3, 4]

def thirteenSeconds (_ : Target) : Act Unit Unit := Act.sleep (.ofSecs 13)

theorem steady_thirteenSeconds : Steady thirteenSeconds := by
  intro target w hOpen
  have hSleep : Act.sleep (.ofSecs 13) w = (.ok (), w.later (.ofSecs 13)) :=
    (Act.returns_sleep hOpen).mpr rfl
  unfold thirteenSeconds
  rw [hSleep]
  exact ⟨hOpen, 13000, rfl⟩

/-- The first cycle begins at 136 seconds and outlasts the next slot, which starts at 148 seconds;
so the second one is run an epoch later, at 532 seconds. -/
theorem neighbours_fire_an_epoch_apart :
    OnTime ({ network := () } : World Unit) ∧
      instant 0 (neighbours.run (steadyClock 0) thirteenSeconds { network := () }).2 = 545000 ∧
      ∃ firings : List (Firing Unit Unit), firings.map Firing.target <+: [3, 4] ∧
        ∀ firing ∈ firings, OnTime firing.fired ∧
          IsLeast (SlotTime.startsAfter (instant 0 firing.begun) 100 firing.target)
            (instant 0 firing.fired) := by
  have hTime : OnTime ({ network := () } : World Unit) := ⟨rfl, 0, rfl⟩
  have hEnd : instant 0 (neighbours.run (steadyClock 0) thirteenSeconds { network := () }).2 =
      545000 := by decide +kernel
  have hRange : instant 0 (neighbours.run (steadyClock 0) thirteenSeconds { network := () }).2 <
      2 ^ 64 := by
    rw [hEnd]
    decide
  obtain ⟨firings, _, _, _, hTargets, _, hLeast, _⟩ :=
    run_fires_on_slots steady_thirteenSeconds hTime rfl hRange
  exact ⟨hTime, hEnd, firings, hTargets, hLeast⟩

end Timetable

end TxLoad

import Mathlib.Algebra.BigOperators.Group.List.Basic
import TxLoad.Proofs.Run.Accounting
import TxLoad.Proofs.Run.Span

/-! # Runs at slots, cycle by cycle

A run at slots is made of its cycles. Each is a run of its own, which begins with the reads of a
price at the start of its target's slot, and nothing is called between two cycles. So the calls of
the whole are those of its cycles in their order, and its totals are their sums. A cycle that fails
is the last one.
-/

namespace TxLoad

variable {σ : Type}

/-! ## The first calls of a run -/

/-- The transfer whose gas is estimated for each price of a plan. -/
def Plan.probe (p : Plan) : CallObject := Pricing.probe p.account.address p.recipient p.amount

/-- The reads that are started for a price when the endpoints are in state `s`. -/
def Plan.firstReads (network : Network σ) (p : Plan) (s : σ) : List Call :=
  (network.fees p.probe s).1.started p.probe

theorem Plan.head?_firstReads (network : Network σ) (p : Plan) (s : σ) :
    (p.firstReads network s).head? = some (.estimateGas p.probe) := by
  unfold firstReads FeeReplies.started
  split
  · rfl
  · split <;> rfl

theorem Act.prefix_calls_bind {α β : Type} {x : Act σ α} {f : α → Act σ β} {w : World σ}
    (hf : ∀ a v, x.Returns w a v → v.calls <+: (f a v).2.calls) :
    (x w).2.calls <+: ((x >>= f) w).2.calls := by
  rw [bind_apply]
  rcases hx : x w with ⟨s | a, v⟩
  · exact List.prefix_rfl
  · exact hf a v hx

/-- A preparation begins with the reads of the price. -/
theorem Plan.calls_preparation (network : Network σ) (p : Plan) (chainId : Word64)
    (remaining : Nat) {w : World σ} (hOpen : w.cutOff = none) :
    (w.calls ++ (p.firstReads network w.network).map fun call => (w.now, call)) <+:
      (p.preparation network chainId remaining w).2.calls := by
  have hObtain := Pricing.makes_obtain network p.account.address p.recipient p.amount hOpen
  have hFirst : (Pricing.obtain network p.account.address p.recipient p.amount w).2.calls =
      w.calls ++ (p.firstReads network w.network).map fun call => (w.now, call) :=
    (Pricing.view_obtain World.calls (fun _ _ => rfl) (fun _ _ _ => rfl) (fun _ => rfl)
      network _ _ _ w).trans <|
      congrArg (fun r => r.2.calls) (Act.askFees_apply network p.probe hOpen)
  rw [← hFirst]
  exact Act.prefix_calls_bind fun pricing v hPrice =>
    (Batch.makes_priced network p.account (p.terms chainId) _ pricing
      (hObtain.all_open hOpen hPrice)).prefix_calls

theorem World.Grows.prefix_calls {w w' : World σ} {made : List (Duration × Call)}
    (h : w.Grows made w') : w.calls <+: w'.calls := ⟨made, h.calls_eq.symm⟩

section Runs

variable {network : Network σ} {p : Plan} {chainId : Word64} {w v w' : World σ}
  {legs : List (Leg σ)}

theorem Legs.prefix_firstReads {remaining left : Nat}
    (h : Legs network p chainId remaining w legs left w') (hOpen : w.cutOff = none)
    (hSome : legs ≠ []) :
    (w.calls ++ (p.firstReads network w.network).map fun call => (w.now, call)) <+: w'.calls := by
  cases h with
  | nil => exact absurd rfl hSome
  | cons _ hPrepare hSubmit hLegs =>
    have hFirst := p.calls_preparation network chainId remaining hOpen
    rw [show p.preparation network chainId remaining w = _ from hPrepare] at hFirst
    have hReady := (p.makes_preparation network chainId remaining hOpen).all_open hOpen hPrepare
    obtain ⟨_, _, hReturns, _, hGrows, _⟩ := Batch.returns_submit network p.submitLimit _ hReady
    obtain ⟨_, rfl⟩ := hSubmit.unique hReturns
    obtain ⟨_, hRest, _⟩ := hLegs.grows (Plan.rested_open (hGrows.isOpen hReady))
    exact hFirst.trans (hGrows.prefix_calls.trans
      ((Plan.rested_grows p _ _).prefix_calls.trans hRest.prefix_calls))

/-- A run that has transfers to send begins with the reads of a price. -/
theorem Plan.Ran.prefix_firstReads {result : Except Stop Totals}
    (h : p.Ran network chainId w legs v result w') (hOpen : w.cutOff = none)
    (hCount : p.count ≠ 0) :
    (w.calls ++ (p.firstReads network w.network).map fun call => (w.now, call)) <+: w'.calls := by
  have hSome : p.count.toNat ≠ 0 := Word64.toNat_ne_zero hCount
  cases h with
  | completed hLegs =>
    rcases hLegs.nil_or_cons with ⟨_, hNone, _⟩ | ⟨leg, rest, rfl, _⟩
    · exact absurd hNone.symm hSome
    · exact hLegs.prefix_firstReads hOpen (List.cons_ne_nil _ _)
  | @broken left _ _ _ hLegs _ hStops =>
    have hLost := (p.makes_preparation network chainId left (hLegs.isOpen hOpen)).prefix_calls
    have hFirst := p.calls_preparation network chainId left (hLegs.isOpen hOpen)
    rw [show p.preparation network chainId left v = _ from hStops] at hLost hFirst
    rcases hLegs.nil_or_cons with ⟨rfl, _, rfl⟩ | ⟨leg, rest, rfl, _⟩
    · exact hFirst
    · exact (hLegs.prefix_firstReads hOpen (List.cons_ne_nil _ _)).trans hLost

theorem Plan.Ran.grows {result : Except Stop Totals}
    (h : p.Ran network chainId w legs v result w') (hOpen : w.cutOff = none) :
    ∃ made lost, w.Grows (made ++ lost) w' ∧
      made.map Prod.snd = legs.flatMap (Leg.calls p chainId) ∧
      lost.map Prod.snd <+: Batch.preparationCalls p.account (p.terms chainId) ∧
      ∀ totals, result = .ok totals → lost = [] := by
  cases h with
  | completed hLegs =>
    obtain ⟨made, hMade, hCalls⟩ := hLegs.grows hOpen
    exact ⟨made, [], hMade.trans (.refl _), hCalls, List.nil_prefix, fun _ _ => rfl⟩
  | broken hLegs _ hStops =>
    obtain ⟨made, hMade, hCalls⟩ := hLegs.grows hOpen
    obtain ⟨lost, hLost, hPrefix⟩ :=
      (p.makes_preparation network chainId _ (hMade.isOpen hOpen)).first hStops
    exact ⟨made, lost, hMade.trans hLost, hCalls, hPrefix, fun _ h => by cases h⟩

theorem Plan.Ran.of_ok {totals : Totals} (h : p.Ran network chainId w legs v (.ok totals) w') :
    totals = Leg.totals legs ∧ Legs network p chainId p.count.toNat w legs 0 w' := by
  cases h with
  | completed hLegs => exact ⟨rfl, hLegs⟩

theorem Plan.Ran.of_error {s : Stop} (h : p.Ran network chainId w legs v (.error s) w') :
    ∃ left, Legs network p chainId p.count.toNat w legs left v ∧ left ≠ 0 ∧
      (p.preparation network chainId left).Stops v s w' := by
  cases h with
  | broken hLegs hLeft hStops => exact ⟨_, hLegs, hLeft, hStops⟩

theorem Legs.length_eq_batchCount (h : Legs network p chainId p.count.toNat w legs 0 v) :
    legs.length = batchCount p.count.toNat p.batchSize.toNat := by
  by_cases hSize : p.batchSize = 0
  · -- no batch can be prepared, so there was nothing to send
    rcases h.nil_or_cons with ⟨rfl, hNone, _⟩ | ⟨leg, rest, _, hPrepare⟩
    · rw [← hNone, hSize]
      rfl
    · have hFirst := (Batch.returns_prepare hPrepare).1
      rw [hSize, show (0 : Word64).toNat = 0 from rfl, Nat.min_zero] at hFirst
      exact absurd rfl hFirst
  · exact h.length_of_done hSize rfl

end Runs

theorem Leg.filter_isSubmission_calls (p : Plan) (chainId : Word64) (legs : List (Leg σ)) :
    (legs.flatMap (calls p chainId)).filter Call.isSubmission =
      legs.flatMap fun leg => submissionCalls leg.batch.transfers := by
  induction legs with
  | nil => rfl
  | cons leg legs ih =>
    rw [List.flatMap_cons, List.filter_append, ih, calls, List.filter_append,
      filter_isSubmission_of_prefix List.prefix_rfl, filter_isSubmission_submissionCalls,
      List.flatMap_cons]
    rfl

theorem Leg.length_submissions (legs : List (Leg σ)) :
    (legs.flatMap fun leg => submissionCalls leg.batch.transfers).length =
      (legs.map size).sum := by
  rw [List.length_flatMap]
  exact congrArg List.sum (List.map_congr_left fun leg _ => List.length_map _)

/-! ## Cycles -/

/-- A cycle of a run at slots: what it was run for and when, and its legs, which lead to `last`. -/
structure Cycle (σ : Type) where
  firing : Firing σ Totals
  legs : List (Leg σ)
  last : World σ

namespace Cycle

variable (network : Network σ) (p : Plan) (chainId : Word64)

def target (c : Cycle σ) : Target := c.firing.target

/-- The calls from the end of the wait to the end of the cycle. -/
def made (c : Cycle σ) : List (Duration × Call) :=
  c.firing.ended.calls.drop c.firing.fired.calls.length

def totals (c : Cycle σ) : Totals := Leg.totals c.legs

def submissions (c : Cycle σ) : List Call :=
  c.legs.flatMap fun leg => submissionCalls leg.batch.transfers

/-- The cycle is one run of the plan, and its legs are those of that run. -/
structure IsRun (c : Cycle σ) : Prop where
  sent : p.send network chainId c.firing.entered = (c.firing.outcome, c.firing.ended)
  ran : p.Ran network chainId c.firing.entered c.legs c.last c.firing.outcome c.firing.ended

/-- The cycle begins at the start of its slot, which is the first one after the beginning of the
wait. Before, it calls nothing; right then, it begins with the reads of a price. -/
structure OnSlot (base genesis : Nat) (c : Cycle σ) : Prop where
  least : IsLeast
    (SlotTime.startsAfter (Timetable.instant base c.firing.begun) genesis c.target)
    (Timetable.instant base c.firing.fired)
  timely : ∀ call ∈ c.made, c.firing.fired.now.nanos ≤ call.1.nanos
  first : p.count ≠ 0 → c.made.head? = some (c.firing.fired.now, .estimateGas p.probe)
  /-- All three reads are made there, unless one is answered with a fault. -/
  reads : p.count ≠ 0 → (network.fees p.probe c.firing.fired.network).1.firstFault? = none →
    ((feeCalls p.probe).map fun call => (c.firing.fired.now, call)) <+: c.made

/-- The cycle sends as many transfers as are planned, in as few batches as the plan allows. -/
structure Succeeds (c : Cycle σ) : Prop where
  course : Legs network p chainId p.count.toNat c.firing.entered c.legs 0 c.firing.ended
  outcome : c.firing.outcome = .ok c.totals
  batches : c.totals.batches = batchCount p.count.toNat p.batchSize.toNat
  accounted : c.totals.sent + c.totals.failed = p.count.toNat
  submitted : c.submissions.length = p.count.toNat
  calls : c.made.map Prod.snd = c.legs.flatMap (Leg.calls p chainId)

/-- The cycle ends with what stopped the preparation of one batch. It has submitted the batches
before that one, which are full, and nothing else. -/
structure Fails (c : Cycle σ) (s : Stop) : Prop where
  early : p.batchSize.toNat * c.legs.length < p.count.toNat
  course : Legs network p chainId p.count.toNat c.firing.entered c.legs
    (p.count.toNat - p.batchSize.toNat * c.legs.length) c.last
  stops : (p.preparation network chainId
    (p.count.toNat - p.batchSize.toNat * c.legs.length)).Stops c.last s c.firing.ended
  outcome : c.firing.outcome = .error s
  sizes : c.legs.map Leg.size = List.replicate c.legs.length p.batchSize.toNat
  calls : ∃ lost, c.made.map Prod.snd = c.legs.flatMap (Leg.calls p chainId) ++ lost ∧
    lost <+: Batch.preparationCalls p.account (p.terms chainId)

variable {network p chainId} {c : Cycle σ}

theorem length_submissions (c : Cycle σ) : c.submissions.length = (c.legs.map Leg.size).sum :=
  Leg.length_submissions c.legs

theorem IsRun.grows (h : c.IsRun network p chainId) (hOpen : c.firing.fired.cutOff = none) :
    c.firing.fired.Grows c.made c.firing.ended ∧
      ∃ lost, c.made.map Prod.snd = c.legs.flatMap (Leg.calls p chainId) ++ lost ∧
        lost <+: Batch.preparationCalls p.account (p.terms chainId) ∧
        ∀ totals, c.firing.outcome = .ok totals → lost = [] := by
  obtain ⟨made, lost, hGrows, hCalls, hPrefix, hNone⟩ := h.ran.grows hOpen
  have hEntered : c.firing.fired.Grows [] c.firing.entered := .silent rfl rfl (Nat.le_refl _)
  have hFired : c.firing.fired.Grows (made ++ lost) c.firing.ended := hEntered.trans hGrows
  have hMade : c.made = made ++ lost := by
    unfold Cycle.made
    rw [hFired.calls_eq, List.drop_left]
  refine ⟨hMade ▸ hFired, lost.map Prod.snd, ?_, hPrefix, fun totals hOk => ?_⟩
  · rw [hMade, List.map_append, hCalls]
  · rw [hNone totals hOk, List.map_nil]

theorem IsRun.succeeds (h : c.IsRun network p chainId) (hOpen : c.firing.fired.cutOff = none)
    {totals : Totals} (hOk : c.firing.outcome = .ok totals) : c.Succeeds network p chainId := by
  obtain ⟨_, lost, hCalls, _, hNone⟩ := h.grows hOpen
  rw [hNone totals hOk, List.append_nil] at hCalls
  obtain ⟨rfl, hLegs⟩ := (hOk ▸ h.ran).of_ok
  exact
    { course := hLegs
      outcome := hOk
      batches := hLegs.length_eq_batchCount
      accounted := (hLegs.sum_reports hOpen).trans hLegs.sum_sizes
      submitted := (length_submissions _).trans hLegs.sum_sizes
      calls := hCalls }

theorem IsRun.fails (h : c.IsRun network p chainId) (hOpen : c.firing.fired.cutOff = none)
    {s : Stop} (hError : c.firing.outcome = .error s) : c.Fails network p chainId s := by
  obtain ⟨_, lost, hCalls, hPrefix, _⟩ := h.grows hOpen
  obtain ⟨left, hLegs, hLeft, hStops⟩ := (hError ▸ h.ran).of_error
  have hLength := hLegs.length_of_left hLeft
  obtain rfl : left = p.count.toNat - p.batchSize.toNat * c.legs.length := by omega
  exact
    { early := by omega
      course := hLegs
      stops := hStops
      outcome := hError
      sizes := hLegs.sizes_of_left hLeft
      calls := ⟨lost, hCalls, hPrefix⟩ }

end Cycle

/-! ## The course of the cycles -/

namespace Timetable

variable {network : Network σ} {p : Plan} {chainId : Word64} {base : Nat} {genesis : Word64}

/-- A wait makes no calls. -/
theorem grows_of_wait {target : Target} {wait : Duration} {w read fired : World σ}
    (hOpen : w.cutOff = none)
    (hWait : (nextWait (steadyClock base) genesis target).Returns w wait read)
    (hAwait : (await target wait).Returns read () fired) : w.Grows [] fired := by
  obtain ⟨hFired, millis, hNow, _⟩ := waited hOpen hWait hAwait
  have hRead : read.calls = w.calls :=
    (keeps_nextWait World.calls (fun _ _ => rfl) _ genesis target).of_returns hWait
  have hCalls : fired.calls = read.calls :=
    (keeps_await World.calls (fun _ => rfl) (fun _ => rfl) fun _ _ => rfl).of_returns
      hAwait
  refine .silent (hFired.trans hOpen.symm) (hCalls.trans hRead) ?_
  rw [hNow]
  exact Nat.le_add_right _ _

theorem isOpen_ended {target : Target} {fired ended : World σ} {totals : Totals}
    (hFired : fired.cutOff = none)
    (hCycle : (fire (fun _ => p.send network chainId) target).Returns fired totals ended) :
    ended.cutOff = none := by
  obtain ⟨legs, v, hRan⟩ := p.send_ran network chainId
    (w := { fired with notices := fired.notices ++ [.slotReached target.toNat] }) hFired hCycle
  exact (hRan.ended_of_ok hFired).2

/-- A cycle that is waited for is one run of the plan, at the start of its slot. -/
theorem exists_cycle {target : Target} {wait : Duration} {w read fired ended : World σ}
    {outcome : Except Stop Totals} (hOpen : w.cutOff = none)
    (hWait : (nextWait (steadyClock base) genesis target).Returns w wait read)
    (hAwait : (await target wait).Returns read () fired)
    (hCycle : fire (fun _ => p.send network chainId) target fired = (outcome, ended))
    (hRange : instant base ended < 2 ^ 64) :
    ∃ c : Cycle σ, c.firing = ⟨target, w, fired, outcome, ended⟩ ∧ c.IsRun network p chainId ∧
      c.OnSlot network p base genesis.toNat ∧ w.Grows c.made ended := by
  have hSilent := grows_of_wait hOpen hWait hAwait
  have hFired := hSilent.isOpen hOpen
  obtain ⟨legs, v, hRan⟩ := p.send_ran network chainId
    (w := Firing.entered ⟨target, w, fired, outcome, ended⟩) hFired hCycle
  let c : Cycle σ := ⟨⟨target, w, fired, outcome, ended⟩, legs, v⟩
  have hRun : c.IsRun network p chainId := ⟨hCycle, hRan⟩
  obtain ⟨hGrows, _⟩ := hRun.grows hFired
  have hWhole : w.Grows c.made ended := hSilent.trans hGrows
  have hBegun : instant base w < 2 ^ 64 := Nat.lt_of_le_of_lt (instant_mono hWhole.now_le) hRange
  have hReads : p.count ≠ 0 →
      ((p.firstReads network fired.network).map fun call => (fired.now, call)) <+: c.made := by
    intro hCount
    have hFirst := hRan.prefix_firstReads hFired hCount
    rw [hGrows.calls_eq] at hFirst
    exact (List.prefix_append_right_inj _).mp hFirst
  refine ⟨c, rfl, hRun, ?_, hWhole⟩
  exact
    { least := fired_isLeast hOpen hBegun hWait hAwait
      timely := fun call hCall => (hGrows.timely call hCall).1
      first := by
        intro hCount
        obtain ⟨later, hMade⟩ := hReads hCount
        obtain ⟨reads, hFirst⟩ :=
          List.head?_eq_some_iff.mp (p.head?_firstReads network fired.network)
        rw [← hMade, hFirst]
        rfl
      reads := by
        intro hCount hNoFault
        have hAll := FeeReplies.started_of_firstFault?_eq_none hNoFault p.probe
        rw [← hAll]
        exact hReads hCount }

namespace Course

variable {targets : List Target} {firings : List (Firing σ Totals)} {outcome : Except Stop Unit}
  {w w' : World σ}

/-- The calls of a run at slots are those of its cycles. -/
theorem exists_cycles
    (h : Course (steadyClock base) (fun _ => p.send network chainId) genesis w targets firings
      outcome w') (hOpen : w.cutOff = none) (hRange : instant base w' < 2 ^ 64) :
    ∃ cycles : List (Cycle σ), cycles.map Cycle.firing = firings ∧
      (∀ c ∈ cycles, c.IsRun network p chainId ∧ c.OnSlot network p base genesis.toNat ∧
        c.firing.fired.cutOff = none) ∧
      w.Grows (cycles.flatMap Cycle.made) w' := by
  induction h with
  | finished w => exact ⟨[], rfl, by simp, .refl w⟩
  | unscheduled hWait =>
    obtain ⟨_, rfl, _⟩ := stops_nextWait_steadyClock hWait
    exact ⟨[], rfl, by simp, .silent rfl rfl (Nat.le_refl _)⟩
  | cut hWait hAwait => exact absurd hAwait (not_stops_await (open_read hOpen hWait))
  | failed hWait hAwait hCycle =>
    obtain ⟨c, hFiring, hRun, hSlot, hGrows⟩ := exists_cycle hOpen hWait hAwait hCycle hRange
    have hFired := (grows_of_wait hOpen hWait hAwait).isOpen hOpen
    refine ⟨[c], congrArg (fun firing => [firing]) hFiring,
      List.forall_mem_singleton.mpr ⟨hRun, hSlot, hFiring ▸ hFired⟩, ?_⟩
    rw [List.flatMap_singleton]
    exact hGrows
  | fired hWait hAwait hCycle hRest ih =>
    have hFired := (grows_of_wait hOpen hWait hAwait).isOpen hOpen
    obtain ⟨cycles, rfl, hCycles, hLater⟩ := ih (isOpen_ended hFired hCycle) hRange
    obtain ⟨c, hFiring, hRun, hSlot, hGrows⟩ := exists_cycle hOpen hWait hAwait hCycle
      (Nat.lt_of_le_of_lt (instant_mono hLater.now_le) hRange)
    refine ⟨c :: cycles, by rw [List.map_cons, hFiring], ?_, hGrows.trans hLater⟩
    exact List.forall_mem_cons.mpr ⟨⟨hRun, hSlot, hFiring ▸ hFired⟩, hCycles⟩

/-- All targets are passed, or a cycle fails and is the last one, or a start lies beyond the range
of a word. -/
theorem ends
    (h : Course (steadyClock base) (fun _ => p.send network chainId) genesis w targets firings
      outcome w') (hOpen : w.cutOff = none) :
    (outcome = .ok () ∧ firings.map Firing.target = targets ∧
        ∀ firing ∈ firings, ∃ totals, firing.outcome = .ok totals) ∨
      (∃ before last s, firings = before ++ [last] ∧
        (∀ firing ∈ before, ∃ totals, firing.outcome = .ok totals) ∧
        last.outcome = .error s ∧ outcome = .error s) ∨
      (outcome = .error (.fault .addOverflow) ∧ 2 ^ 64 ≤ genesis.toNat + 12 * 31 ∧
        ∀ firing ∈ firings, ∃ totals, firing.outcome = .ok totals) := by
  induction h with
  | finished => exact .inl ⟨rfl, rfl, by simp⟩
  | unscheduled hWait =>
    obtain ⟨rfl, _, _, hOut⟩ := stops_nextWait_steadyClock hWait
    exact .inr (.inr ⟨rfl, hOut, by simp⟩)
  | cut hWait hAwait => exact absurd hAwait (not_stops_await (open_read hOpen hWait))
  | @failed target _ _ s w _ fired ended hWait hAwait hCycle =>
    exact .inr (.inl ⟨[], _, s, rfl, by simp, rfl, rfl⟩)
  | @fired target rest _ totals w _ fired ended w' firings _ hWait hAwait hCycle hRest ih =>
    have hFired := (grows_of_wait hOpen hWait hAwait).isOpen hOpen
    have hFirst : ∃ given, (⟨target, w, fired, .ok totals, ended⟩ : Firing σ Totals).outcome =
        .ok given := ⟨totals, rfl⟩
    rcases ih (isOpen_ended hFired hCycle) with ⟨hOk, hTargets, hAll⟩ |
      ⟨before, last, s, rfl, hBefore, hLast, hError⟩ | ⟨hError, hOut, hAll⟩
    · exact .inl ⟨hOk, congrArg (target :: ·) hTargets, List.forall_mem_cons.mpr ⟨hFirst, hAll⟩⟩
    · exact .inr (.inl ⟨_ :: before, last, s, rfl, List.forall_mem_cons.mpr ⟨hFirst, hBefore⟩,
        hLast, hError⟩)
    · exact .inr (.inr ⟨hError, hOut, List.forall_mem_cons.mpr ⟨hFirst, hAll⟩⟩)

end Course

end Timetable

/-! ## What the cycles add up to -/

theorem Totals.foldl_add (l : List Totals) (t : Totals) :
    l.foldl Totals.add t = ⟨t.batches + (l.map Totals.batches).sum,
      t.sent + (l.map Totals.sent).sum, t.failed + (l.map Totals.failed).sum⟩ := by
  induction l generalizing t with
  | nil => rfl
  | cons u l ih =>
    rw [List.foldl_cons, ih]
    simp only [Totals.add, List.map_cons, List.sum_cons, Nat.add_assoc]

namespace Cycle

variable {network : Network σ} {p : Plan} {chainId : Word64} {cycles : List (Cycle σ)}

/-- There is one cycle for each target, all of them succeed, and the totals are their sums. -/
structure Complete (network : Network σ) (p : Plan) (chainId : Word64) (targets : List Target)
    (cycles : List (Cycle σ)) (totals : Totals) : Prop where
  inOrder : cycles.map target = targets
  succeed : ∀ c ∈ cycles, c.Succeeds network p chainId
  sums : totals = ⟨(cycles.map fun c => c.totals.batches).sum,
    (cycles.map fun c => c.totals.sent).sum, (cycles.map fun c => c.totals.failed).sum⟩
  batches : totals.batches = targets.length * batchCount p.count.toNat p.batchSize.toNat
  accounted : totals.sent + totals.failed = targets.length * p.count.toNat
  submissions : (cycles.flatMap submissions).length = targets.length * p.count.toNat

theorem sum_map_eq_mul {f : Cycle σ → Nat} {n : Nat} (h : ∀ c ∈ cycles, f c = n) :
    (cycles.map f).sum = cycles.length * n := by
  rw [List.map_congr_left h, List.map_const', List.sum_replicate_nat]

theorem complete_of_succeed {targets : List Target} (hTargets : cycles.map target = targets)
    (h : ∀ c ∈ cycles, c.Succeeds network p chainId) :
    Complete network p chainId targets cycles ((cycles.map totals).foldl Totals.add {}) := by
  have hLength : cycles.length = targets.length := by rw [← hTargets, List.length_map]
  have hSums : (cycles.map totals).foldl Totals.add {} =
      ⟨(cycles.map fun c => c.totals.batches).sum, (cycles.map fun c => c.totals.sent).sum,
        (cycles.map fun c => c.totals.failed).sum⟩ := by
    rw [Totals.foldl_add, List.map_map, List.map_map, List.map_map]
    simp only [Nat.zero_add]
    rfl
  rw [hSums]
  exact
    { inOrder := hTargets
      succeed := h
      sums := rfl
      batches := by rw [← hLength]; exact sum_map_eq_mul fun c hc => (h c hc).batches
      accounted := by
        rw [← hLength, ← sum_map_eq_mul fun c hc => (h c hc).accounted]
        exact List.sum_map_add.symm
      submissions := by
        rw [← hLength, List.length_flatMap]
        exact sum_map_eq_mul fun c hc => (h c hc).submitted }

/-- The totals that the cycles return are those of their legs. -/
theorem totals_eq {found : List Totals} (h : ∀ c ∈ cycles, c.IsRun network p chainId)
    (hOutcomes : (cycles.map firing).map Firing.outcome = found.map .ok) :
    cycles.map totals = found := by
  induction cycles generalizing found with
  | nil => exact (List.map_eq_nil_iff.mp hOutcomes.symm).symm
  | cons c cycles ih =>
    cases found with
    | nil => cases hOutcomes
    | cons result found =>
      obtain ⟨hFirst, hRest⟩ := List.cons.inj hOutcomes
      obtain ⟨hRun, hOthers⟩ := List.forall_mem_cons.mp h
      obtain ⟨rfl, _⟩ := (hFirst ▸ hRun.ran).of_ok
      rw [List.map_cons, ih hOthers hRest]
      rfl

theorem IsRun.filter_made {c : Cycle σ} (h : c.IsRun network p chainId)
    (hOpen : c.firing.fired.cutOff = none) :
    (c.made.map Prod.snd).filter Call.isSubmission = c.submissions := by
  obtain ⟨_, lost, hCalls, hPrefix, _⟩ := h.grows hOpen
  rw [hCalls, List.filter_append, filter_isSubmission_of_prefix hPrefix, List.append_nil,
    Leg.filter_isSubmission_calls]
  rfl

theorem filter_made (h : ∀ c ∈ cycles, c.IsRun network p chainId ∧ c.firing.fired.cutOff = none) :
    ((cycles.flatMap made).map Prod.snd).filter Call.isSubmission = cycles.flatMap submissions := by
  induction cycles with
  | nil => rfl
  | cons c cycles ih =>
    obtain ⟨⟨hRun, hOpen⟩, hRest⟩ := List.forall_mem_cons.mp h
    rw [List.flatMap_cons, List.map_append, List.filter_append, hRun.filter_made hOpen, ih hRest]
    rfl

end Cycle

/-- A run at slots, with a clock that follows the time, is made of complete runs, one for each of
the first targets. Each is begun exactly at the start of its slot, and nothing is called outside of
them. Either all targets had their run and all succeeded, or the first that failed was the last one
and its failure is the result, or the start of a slot lies beyond the range of a word. -/
theorem Plan.sendAtSlots_cycles {network : Network σ} {p : Plan} {chainId : Word64} {base : Nat}
    {t : Timetable} {w w' : World σ} {result : Except Stop Totals} (hOpen : w.cutOff = none)
    (hSend : p.sendAtSlots network (Timetable.steadyClock base) chainId t w = (result, w'))
    (hRange : Timetable.instant base w' < 2 ^ 64) :
    ∃ cycles : List (Cycle σ), cycles.map Cycle.target <+: t.remaining ∧
      Timetable.Consecutive w (cycles.map Cycle.firing) ∧
      (∀ c ∈ cycles, c.IsRun network p chainId ∧ c.OnSlot network p base t.genesis.toNat) ∧
      w'.calls = w.calls ++ cycles.flatMap Cycle.made ∧
      w'.submitted = w.submitted ++ cycles.flatMap Cycle.submissions ∧
      ((∃ totals, result = .ok totals ∧
          Cycle.Complete network p chainId t.remaining cycles totals) ∨
        (∃ before last s, cycles = before ++ [last] ∧
          (∀ c ∈ before, c.Succeeds network p chainId) ∧ last.Fails network p chainId s ∧
          result = .error s) ∨
        (result = .error (.fault .addOverflow) ∧ 2 ^ 64 ≤ t.genesis.toNat + 12 * 31 ∧
          ∀ c ∈ cycles, c.Succeeds network p chainId)) := by
  obtain ⟨results, after, u, told, hRun, rfl, rfl, _⟩ := sendAtSlots_cases hSend
  obtain ⟨firings, hCourse, hResults⟩ := Timetable.runFrom_course _ _ t.genesis t.passed
    t.remaining t.phase w hRun
  obtain ⟨cycles, rfl, hCycles, hGrows⟩ := hCourse.exists_cycles hOpen hRange
  have hTargets : (cycles.map Cycle.firing).map Firing.target = cycles.map Cycle.target :=
    List.map_map
  have hSucceed : ∀ part : List (Cycle σ), (∀ c ∈ part, c ∈ cycles) →
      (∀ firing ∈ part.map Cycle.firing, ∃ totals, firing.outcome = .ok totals) →
      ∀ c ∈ part, c.Succeeds network p chainId := by
    intro part hPart hOk c hc
    obtain ⟨totals, hTotals⟩ := hOk c.firing (List.mem_map_of_mem hc)
    obtain ⟨hIsRun, _, hFired⟩ := hCycles c (hPart c hc)
    exact hIsRun.succeeds hFired hTotals
  have hStop : ∀ s, (results.map fun _ => ()) = .error s →
      (results.map fun totals => totals.foldl Totals.add {}) = .error s := by
    intro s hError
    cases results with
    | error _ => exact congrArg _ (Except.error.inj hError)
    | ok _ => cases hError
  refine ⟨cycles, hTargets ▸ hCourse.targets_prefix, hCourse.consecutive,
    fun c hc => ⟨(hCycles c hc).1, (hCycles c hc).2.1⟩, hGrows.calls_eq, ?_, ?_⟩
  · refine hGrows.submitted.trans ?_
    rw [Cycle.filter_made fun c hc => ⟨(hCycles c hc).1, (hCycles c hc).2.2⟩]
  rcases hCourse.ends hOpen with ⟨hOk, hAll, hFirings⟩ |
    ⟨before, last, s, hSplit, hBefore, hLast, hError⟩ | ⟨hError, hOut, hFirings⟩
  · have hAllSucceed := hSucceed cycles (fun _ h => h) hFirings
    cases results with
    | error s => cases hOk
    | ok found =>
      obtain ⟨_, hOutcomes⟩ := hResults found rfl
      refine .inl ⟨_, rfl, ?_⟩
      rw [← Cycle.totals_eq (fun c hc => (hCycles c hc).1) hOutcomes]
      exact Cycle.complete_of_succeed (hTargets ▸ hAll) hAllSucceed
  · obtain ⟨first, others, rfl, rfl, hOthers⟩ := List.map_eq_append_iff.mp hSplit
    obtain ⟨c, rfl, rfl⟩ := List.map_eq_singleton_iff.mp hOthers
    obtain ⟨hIsRun, _, hFired⟩ := hCycles c (List.mem_append_right _ List.mem_cons_self)
    exact .inr (.inl ⟨first, c, s, rfl,
      hSucceed first (fun _ h => List.mem_append_left _ h) hBefore,
      hIsRun.fails hFired hLast, hStop s hError⟩)
  · exact .inr (.inr ⟨hStop _ hError, hOut, hSucceed cycles (fun _ h => h) hFirings⟩)

/-! ## Runs at neighbouring slots -/

/-- Where reads take no time, each leg takes as long as its submission and the pause at most. -/
theorem Legs.now_le {network : Network σ} {p : Plan} {chainId : Word64} {remaining left : Nat}
    {w v : World σ} {legs : List (Leg σ)} (h : Legs network p chainId remaining w legs left v)
    (hOpen : w.cutOff = none)
    (hReads : ∀ remaining w batch w', w.cutOff = none →
      (p.preparation network chainId remaining).Returns w batch w' → w'.now = w.now) :
    v.now.nanos ≤ w.now.nanos + legs.length * (p.submitLimit.nanos + p.pause.nanos) := by
  induction h with
  | nil => exact Nat.le_add_right _ _
  | @cons remaining _ batch report start ready finish v legs _ hPrepare hSubmit _ ih =>
    have hReady := (p.makes_preparation network chainId remaining hOpen).all_open hOpen hPrepare
    obtain ⟨_, _, hGrows, _⟩ := Plan.leg_spec hPrepare hSubmit hOpen
    have hRead : ready.now = start.now := hReads _ _ _ _ hOpen hPrepare
    have hSettled := Batch.now_le_of_submit hReady hSubmit
    have hPause : (p.rested (remaining - p.batchSize.toNat) finish).now.nanos ≤
        finish.now.nanos + p.pause.nanos := by
      unfold Plan.rested
      split
      · exact Nat.le_add_right _ _
      · exact Nat.le_refl _
    have hRest := ih (Plan.rested_open (hGrows.isOpen hOpen))
    rw [hRead] at hSettled
    rw [List.length_cons, Nat.succ_mul]
    omega

namespace Plan

/-- Where the pending count is told whenever it is asked for, the seven transfers are sent within
15.3 seconds: each of three batches has five seconds and a pause. -/
theorem prompt_sevenByThree :
    Timetable.Prompt 15300 fun _ => sevenByThree.send (answering fun _ => true) 1 := by
  intro target w hOpen
  rcases hSend : sevenByThree.send (answering fun _ => true) 1 w with ⟨result, w'⟩
  obtain ⟨legs, v, hRan⟩ := send_ran (answering fun _ => true) sevenByThree 1 hOpen hSend
  cases hRan with
  | completed hLegs =>
    obtain ⟨_, hGrows, _⟩ := hLegs.grows hOpen
    have hNow := hLegs.now_le hOpen fun _ _ _ _ hOpen h => (told_of_preparation hOpen h).2.2
    rw [hLegs.length_eq_batchCount] at hNow
    exact ⟨_, _, hSend, hGrows.isOpen hOpen, hGrows.now_le, hNow⟩
  | broken hLegs hLeft hStops =>
    obtain ⟨_, _, hReturns, _⟩ :=
      exists_preparation_answering (fun _ => true) hLeft (hLegs.isOpen hOpen) rfl
    exact absurd hStops hReturns.not_stops

/-- There, both cycles for neighbouring slots succeed. -/
theorem sendAtSlots_neighbours_answering :
    ∃ totals w', sevenByThree.sendAtSlots (answering fun _ => true) (Timetable.steadyClock 100000) 1
        Timetable.neighbours { network := 0 } = (.ok totals, w') ∧
      Timetable.instant 100000 w' < 2 ^ 64 := by
  rcases hSend : sevenByThree.sendAtSlots (answering fun _ => true) (Timetable.steadyClock 100000)
    1 Timetable.neighbours { network := 0 } with ⟨result, w'⟩
  obtain ⟨results, after, u, told, hRun, rfl, rfl, _⟩ := sendAtSlots_cases hSend
  obtain ⟨firings, hCourse, _⟩ := Timetable.runFrom_course _ _ _ _ _ _ _ hRun
  obtain ⟨hOk, hInstant⟩ := hCourse.completes prompt_sevenByThree rfl (by decide) (by decide)
  cases results with
  | error s => cases hOk
  | ok totals => exact ⟨_, _, rfl, Nat.lt_of_le_of_lt hInstant (by decide)⟩

/-- Where no block is known, the run at slots ends at the first of them; nothing is submitted. -/
theorem sendAtSlots_neighbours_blockless :
    ∃ s w', sevenByThree.sendAtSlots blockless (Timetable.steadyClock 0) 1 Timetable.neighbours
        { network := () } = (.error s, w') ∧
      Timetable.instant 0 w' = 136000 ∧ w'.submitted = [] := by
  have hInstant : Timetable.instant 0 (sevenByThree.sendAtSlots blockless
      (Timetable.steadyClock 0) 1 Timetable.neighbours { network := () }).2 = 136000 := by
    decide +kernel
  have hNone : (sevenByThree.sendAtSlots blockless (Timetable.steadyClock 0) 1
      Timetable.neighbours { network := () }).2.submitted = [] := by decide +kernel
  have hError : (sevenByThree.sendAtSlots blockless (Timetable.steadyClock 0) 1
      Timetable.neighbours { network := () }).1.isOk = false := by decide +kernel
  rcases hSend : sevenByThree.sendAtSlots blockless (Timetable.steadyClock 0) 1
    Timetable.neighbours { network := () } with ⟨s | totals, w'⟩
  · rw [hSend] at hInstant hNone
    exact ⟨s, w', rfl, hInstant, hNone⟩
  · rw [hSend] at hError
    cases hError

end Plan

/-- Where all is answered, there are two cycles of seven transfers, the first at 136 seconds. Where
no block is known, the cycle at 136 seconds is broken off before anything is submitted, and there is
none for the second target. -/
theorem Plan.neighbours_succeed_or_break :
    (({ network := 0 } : World Nat).cutOff = none ∧
      ∃ totals w', ∃ c d : Cycle Nat,
        sevenByThree.sendAtSlots (answering fun _ => true) (Timetable.steadyClock 100000) 1
          Timetable.neighbours { network := 0 } = (.ok totals, w') ∧
        Timetable.instant 100000 w' < 2 ^ 64 ∧ c.target = 3 ∧ d.target = 4 ∧
        Timetable.instant 100000 c.firing.fired = 136000 ∧ d.firing.begun = c.firing.ended ∧
        (∀ cycle ∈ [c, d], cycle.OnSlot (answering fun _ => true) sevenByThree 100000 100 ∧
          cycle.Succeeds (answering fun _ => true) sevenByThree 1) ∧
        w'.calls = c.made ++ d.made ∧ w'.submitted = c.submissions ++ d.submissions ∧
        w'.submitted.length = 14 ∧ totals.batches = 6 ∧ totals.sent + totals.failed = 14) ∧
    ({ network := () } : World Unit).cutOff = none ∧
      ∃ result w' s, ∃ c : Cycle Unit,
      sevenByThree.sendAtSlots blockless (Timetable.steadyClock 0) 1 Timetable.neighbours
        { network := () } = (result, w') ∧
      Timetable.instant 0 w' < 2 ^ 64 ∧ c.target = 3 ∧ c.OnSlot blockless sevenByThree 0 100 ∧
      c.Fails blockless sevenByThree 1 s ∧ result = .error s ∧ w'.calls = c.made := by
  constructor
  · obtain ⟨totals, w', hSend, hRange⟩ := sendAtSlots_neighbours_answering
    obtain ⟨cycles, _, hConsecutive, hCycles, hCalls, hSubmitted, hEnd⟩ :=
      sendAtSlots_cycles rfl hSend hRange
    rcases hEnd with ⟨_, hOk, hComplete⟩ | ⟨_, _, _, _, _, _, hError⟩ | ⟨hError, _⟩
    · cases hOk
      obtain ⟨c, others, rfl, hThree, hOthers⟩ := List.map_eq_cons_iff.mp hComplete.inOrder
      obtain ⟨d, rest, rfl, hFour, hNoMore⟩ := List.map_eq_cons_iff.mp hOthers
      obtain rfl := List.map_eq_nil_iff.mp hNoMore
      obtain ⟨hBegun, hNext, _⟩ := hConsecutive
      have hFired := (hCycles c List.mem_cons_self).2.least
      rw [hThree, show c.firing.begun = _ from hBegun] at hFired
      refine ⟨rfl, totals, w', c, d, hSend, hRange, hThree, hFour,
        hFired.unique (SlotTime.isLeast_start_zero (by decide)), hNext,
        fun cycle hMem => ⟨(hCycles cycle hMem).2, hComplete.succeed cycle hMem⟩, ?_, ?_, ?_,
        hComplete.batches, hComplete.accounted⟩
      · rw [hCalls, List.flatMap_cons, List.flatMap_singleton]
        rfl
      · rw [hSubmitted, List.flatMap_cons, List.flatMap_singleton]
        rfl
      · rw [hSubmitted]
        exact hComplete.submissions
    · cases hError
    · cases hError
  · obtain ⟨s, w', hSend, hInstant, hNone⟩ := sendAtSlots_neighbours_blockless
    have hRange : Timetable.instant 0 w' < 2 ^ 64 := by
      rw [hInstant]
      decide
    obtain ⟨cycles, hTargets, _, hCycles, hCalls, hSubmitted, hEnd⟩ :=
      sendAtSlots_cycles rfl hSend hRange
    have hEmpty : ∀ c ∈ cycles, c.submissions = [] :=
      List.flatMap_eq_nil_iff.mp (hSubmitted.symm.trans hNone)
    rcases hEnd with ⟨totals, hOk, _⟩ | ⟨before, c, s, rfl, hBefore, hFails, hError⟩ |
      ⟨_, hOut, _⟩
    · cases hOk
    · cases hError
      obtain rfl : before = [] := by
        refine List.eq_nil_iff_forall_not_mem.mpr fun first hFirst => ?_
        have hSeven := (hBefore first hFirst).submitted
        rw [hEmpty first (List.mem_append_left _ hFirst)] at hSeven
        cases hSeven
      have hSlot := (hCycles c List.mem_cons_self).2
      refine ⟨rfl, _, w', s, c, hSend, hRange, ?_, hSlot, hFails, rfl, ?_⟩
      · exact (List.cons_prefix_cons.mp hTargets).1
      · rw [hCalls, List.nil_append, List.nil_append, List.flatMap_singleton]
    · exact absurd hOut (by decide)

end TxLoad

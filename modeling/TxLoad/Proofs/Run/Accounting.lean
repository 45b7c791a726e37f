import Mathlib.Data.List.Chain
import TxLoad.Proofs.Run.Firing
import TxLoad.Proofs.Run.Ledger

/-! # The nonces of a run

`Entries` lists the legs that lead from one world to another, with nothing but pauses, waits and
reads of the clock between them. On a chain that is up to date, the legs of a run, and those of all
cycles of a timetable, are such a list. It follows which nonces each batch has and what was warned
of: every batch begins where the transfers sent so far end, and the warning before a batch tells how
many transfers of the batch before it failed.
-/

namespace TxLoad

variable {σ : Type}

/-! ## Between the legs -/

/-- What a run has to account for, and when it is cut off. -/
def World.standing (accepted : σ → Nat) (w : World σ) :
    ((Word64 × List Notice) × Nat) × List Call × Option Duration :=
  (w.ledger accepted, w.submitted, w.cutOff)

/-- Nothing is booked, accepted or submitted. -/
def World.Idles (accepted : σ → Nat) (w v : World σ) : Prop :=
  v.standing accepted = w.standing accepted

namespace World.Idles

variable {accepted : σ → Nat} {base : Nat} {w v u : World σ}

theorem refl (w : World σ) : w.Idles accepted w := rfl

theorem trans (h : w.Idles accepted v) (g : v.Idles accepted u) : w.Idles accepted u :=
  Eq.trans g h

theorem ledger (h : w.Idles accepted v) : v.ledger accepted = w.ledger accepted :=
  congrArg Prod.fst h

theorem submitted (h : w.Idles accepted v) : v.submitted = w.submitted :=
  congrArg (Prod.fst ∘ Prod.snd) h

theorem cutOff (h : w.Idles accepted v) : v.cutOff = w.cutOff :=
  congrArg (Prod.snd ∘ Prod.snd) h

theorem accepted_eq (h : w.Idles accepted v) : accepted v.network = accepted w.network :=
  (ledger_eq_iff.mp h.ledger).2.2

theorem missing_eq (h : w.Idles accepted v) : v.missing base accepted = w.missing base accepted :=
  missing_of_ledger_eq h.ledger

theorem lags_eq (h : w.Idles accepted v) : v.lags = w.lags := lags_of_ledger_eq h.ledger

theorem rested (p : Plan) (remaining : Nat) (w : World σ) :
    w.Idles accepted (p.rested remaining w) := by
  unfold Plan.rested
  split
  · rfl
  · rfl

theorem noticed (w : World σ) {n : Notice} (h : n.isLag = false) :
    w.Idles accepted { w with notices := w.notices ++ [n] } :=
  congrArg (·, w.submitted, w.cutOff) (keeps_ledger_notice h w)

end World.Idles

theorem Timetable.keeps_standing_nextWait (accepted : σ → Nat) (clock : Clock) (genesis : Word64)
    (target : Target) :
    Act.Keeps (World.standing accepted) (nextWait clock genesis target : Act σ Duration) :=
  keeps_nextWait _ (fun _ _ => rfl) clock genesis target

theorem Timetable.keeps_standing_await (accepted : σ → Nat) (target : Target) (wait : Duration) :
    Act.Keeps (World.standing accepted) (await target wait : Act σ Unit) :=
  keeps_await _ (fun _ => rfl) (fun w => World.Idles.noticed w rfl) fun _ _ => rfl

/-! ## Entries -/

/-- The legs, each of them booked, lead from the first world to the last. -/
inductive Entries (base : Nat) (accepted : σ → Nat) : World σ → List (Leg σ) → World σ → Prop
  | nil {w v : World σ} (hIdle : w.Idles accepted v) : Entries base accepted w [] v
  | cons {w v : World σ} {leg : Leg σ} {legs : List (Leg σ)} (hIdle : w.Idles accepted leg.start)
      (hLeg : leg.Booked base accepted) (hRest : Entries base accepted leg.finish legs v) :
      Entries base accepted w (leg :: legs) v

namespace Entries

variable {base : Nat} {accepted : σ → Nat} {w v u : World σ} {legs more : List (Leg σ)}

theorem after_idle (hIdle : w.Idles accepted v) (h : Entries base accepted v legs u) :
    Entries base accepted w legs u := by
  cases h with
  | nil hMore => exact .nil (hIdle.trans hMore)
  | cons hMore hLeg hRest => exact .cons (hIdle.trans hMore) hLeg hRest

theorem trans (h : Entries base accepted w legs v) (g : Entries base accepted v more u) :
    Entries base accepted w (legs ++ more) u := by
  induction h with
  | nil hIdle => exact g.after_idle hIdle
  | cons hIdle hLeg _ ih => exact .cons hIdle hLeg (ih g)

theorem booked (h : Entries base accepted w legs v) : ∀ leg ∈ legs, leg.Booked base accepted := by
  induction h with
  | nil => simp
  | cons _ hLeg _ ih => exact List.forall_mem_cons.mpr ⟨hLeg, ih⟩

/-- Every batch begins where the transfers that were sent before it end. -/
theorem nonces_eq {before after : List (Leg σ)} {leg : Leg σ}
    (h : Entries base accepted w (before ++ leg :: after) v) :
    leg.batch.nonces = (List.range leg.size).map
      (base + (accepted w.network + (Leg.totals before).sent) + ·) := by
  induction before generalizing w with
  | nil =>
    cases h with
    | cons hIdle hLeg _ =>
      rw [hLeg.nonces, hIdle.accepted_eq]
      rfl
  | cons first before ih =>
    cases h with
    | cons hIdle hLeg hRest =>
      rw [ih hRest, hLeg.accepted_finish, hIdle.accepted_eq, Leg.totals_cons, Nat.add_assoc]
      rfl

/-- The first batch is prepared with a warning of what was missing before. -/
theorem lags_head {leg : Leg σ} (h : Entries base accepted w (leg :: legs) v) :
    leg.lags = lagsOf (w.missing base accepted) := by
  cases h with
  | cons hIdle hLeg _ => rw [hLeg.warned, hIdle.missing_eq]

/-- Each further batch is prepared with a warning of how many transfers of the batch before it
failed. -/
theorem isChain_lags (h : Entries base accepted w legs v) :
    legs.IsChain fun leg next => next.lags = lagsOf leg.report.failed := by
  induction h with
  | nil => exact .nil
  | @cons w v leg legs _ hLeg hRest ih =>
    cases legs with
    | nil => exact .singleton leg
    | cons next rest =>
      refine List.isChain_cons_cons.mpr ⟨?_, ih⟩
      rw [hRest.lags_head, hLeg.missing_finish]

/-- Nothing else is warned of. -/
theorem lags_eq (h : Entries base accepted w legs v) :
    v.lags = w.lags ++ legs.flatMap Leg.lags := by
  induction h with
  | nil hIdle => rw [hIdle.lags_eq, List.flatMap_nil, List.append_nil]
  | cons hIdle hLeg _ ih =>
    rw [ih, hLeg.lags_finish, hIdle.lags_eq, List.flatMap_cons, List.append_assoc]

/-- What is missing in the end failed in the last batch. -/
theorem missing_eq (h : Entries base accepted w legs v) :
    v.missing base accepted =
      legs.getLast?.elim (w.missing base accepted) fun leg => leg.report.failed := by
  induction h with
  | nil hIdle => exact hIdle.missing_eq
  | @cons w v leg legs _ hLeg _ ih =>
    rw [ih, hLeg.missing_finish, List.getLast?_cons]
    cases legs.getLast? <;> rfl

theorem submitted_eq (h : Entries base accepted w legs v) :
    v.submitted = w.submitted ++ legs.flatMap fun leg => submissionCalls leg.batch.transfers := by
  induction h with
  | nil hIdle => rw [hIdle.submitted, List.flatMap_nil, List.append_nil]
  | cons hIdle hLeg _ ih =>
    rw [ih, hLeg.submitted_finish, hIdle.submitted, List.flatMap_cons, List.append_assoc]

/-- Where nothing was missing and nothing fails, the nonces are consecutive and nothing is warned
of. -/
theorem flawless (h : Entries base accepted w legs v) (hBefore : w.missing base accepted = 0)
    (hNone : ∀ leg ∈ legs, leg.report.failed = 0) :
    (legs.flatMap fun leg => leg.batch.nonces) =
        (List.range (legs.map Leg.size).sum).map (base + accepted w.network + ·) ∧
      legs.flatMap Leg.lags = [] := by
  induction h with
  | nil => exact ⟨rfl, rfl⟩
  | @cons w v leg legs hIdle hLeg hRest ih =>
    obtain ⟨hFirst, hOthers⟩ := List.forall_mem_cons.mp hNone
    have hMissing := hLeg.missing_finish.trans hFirst
    obtain ⟨hNonces, hLags⟩ := ih hMissing hOthers
    have hSize := hLeg.accounted
    have hSent : leg.report.sent = leg.size := by omega
    have hStart : accepted leg.finish.network = accepted w.network + leg.size := by
      rw [hLeg.accepted_finish, hIdle.accepted_eq, hSent]
    constructor
    · rw [List.flatMap_cons, hNonces, hLeg.nonces, hIdle.accepted_eq, List.map_cons,
        List.sum_cons, List.range_add, List.map_append, List.map_map, hStart]
      refine congrArg (_ ++ ·) (List.map_congr_left fun i _ => ?_)
      show base + (accepted w.network + leg.size) + i = base + accepted w.network + (leg.size + i)
      omega
    · rw [List.flatMap_cons, hLags, List.append_nil, hLeg.warned, hIdle.missing_eq, hBefore]
      rfl

end Entries

/-! ## Runs -/

/-- The legs of a run: it sends all its transfers, or the preparation of one batch stops it. Its
last leg ends in `v`. -/
inductive Plan.Ran (network : Network σ) (p : Plan) (chainId : Word64) (w : World σ) :
    List (Leg σ) → World σ → Except Stop Totals → World σ → Prop
  | completed {legs : List (Leg σ)} {v : World σ}
      (hLegs : Legs network p chainId p.count.toNat w legs 0 v) :
      Ran network p chainId w legs v (.ok (Leg.totals legs)) v
  | broken {legs : List (Leg σ)} {left : Nat} {v w' : World σ} {s : Stop}
      (hLegs : Legs network p chainId p.count.toNat w legs left v) (hLeft : left ≠ 0)
      (hStops : (p.preparation network chainId left).Stops v s w') :
      Ran network p chainId w legs v (.error s) w'

/-- No batch of no transfers is prepared. -/
theorem Plan.send_stops_of_batchSize_zero (network : Network σ) (p : Plan) (chainId : Word64)
    (w : World σ) (hSize : p.batchSize = 0) (hCount : p.count.toNat ≠ 0) :
    ∃ s w', (p.preparation network chainId p.count.toNat).Stops w s w' ∧
      (p.send network chainId).Stops w s w' := by
  rcases (p.preparation network chainId p.count.toNat).returns_or_stops w with
    ⟨batch, w', hReturns⟩ | ⟨s, w', hStops⟩
  · have hNone : min p.count.toNat p.batchSize.toNat = 0 := by
      rw [hSize]
      exact Nat.min_zero _
    have hSome := (Batch.returns_prepare hReturns).1
    rw [hNone] at hSome
    exact absurd rfl hSome
  · refine ⟨s, w', hStops, ?_⟩
    unfold send
    rw [sendRemaining, if_neg hCount]
    exact Act.stops_bind.mpr (.inl hStops)

theorem Plan.send_ran (network : Network σ) (p : Plan) (chainId : Word64) {w w' : World σ}
    {result : Except Stop Totals} (hOpen : w.cutOff = none)
    (hSend : p.send network chainId w = (result, w')) :
    ∃ legs v, p.Ran network chainId w legs v result w' := by
  by_cases hCount : p.count.toNat = 0
  · unfold send at hSend
    rw [hCount, sendRemaining_zero] at hSend
    cases hSend
    exact ⟨[], w, .completed (by rw [hCount]; exact .nil 0 w)⟩
  by_cases hSize : p.batchSize = 0
  · obtain ⟨s, v, hStops, hSent⟩ :=
      send_stops_of_batchSize_zero network p chainId w hSize hCount
    cases hSend.symm.trans hSent
    exact ⟨[], w, .broken (.nil _ w) hCount hStops⟩
  · rcases sendRemaining_legs network p chainId p.count.toNat {} w hSize hOpen with
      ⟨legs, v, hLegs, hSent⟩ | ⟨legs, left, v, s, u, hLegs, hLeft, hStops, hSent⟩
    · rw [Totals.zero_add] at hSent
      cases hSend.symm.trans hSent
      exact ⟨legs, w', .completed hLegs⟩
    · cases hSend.symm.trans hSent
      exact ⟨legs, v, .broken hLegs hLeft hStops⟩

/-- Nothing is submitted from `v` on; what was missing there may have been warned of. -/
structure World.Trails (base : Nat) (accepted : σ → Nat) (v w' : World σ) : Prop where
  submitted : w'.submitted = v.submitted
  lags : w'.lags = v.lags ∨ w'.lags = v.lags ++ lagsOf (v.missing base accepted)

theorem World.Idles.trails {base : Nat} {accepted : σ → Nat} {v w' : World σ}
    (h : v.Idles accepted w') : v.Trails base accepted w' := ⟨h.submitted, .inl h.lags_eq⟩

section Runs

variable {network : Network σ} {p : Plan} {chainId : Word64} {base : Nat} {accepted : σ → Nat}
  {w v w' : World σ} {legs : List (Leg σ)}

theorem Legs.entries (hUp : network.UpToDate p.account.address base accepted) {remaining left : Nat}
    (h : Legs network p chainId remaining w legs left v) (hOpen : w.cutOff = none) :
    Entries base accepted w legs v := by
  induction h with
  | nil => exact .nil (.refl _)
  | @cons remaining _ _ _ _ _ finish _ _ _ hPrepare hSubmit _ ih =>
    obtain ⟨_, _, hGrows, _⟩ := Plan.leg_spec hPrepare hSubmit hOpen
    have hRest := ih (Plan.rested_open (hGrows.isOpen hOpen))
    exact .cons (.refl _) (Plan.booked hUp hPrepare hSubmit hOpen)
      (hRest.after_idle (.rested p (remaining - p.batchSize.toNat) finish))

theorem Legs.isOpen {remaining left : Nat} (h : Legs network p chainId remaining w legs left v)
    (hOpen : w.cutOff = none) : v.cutOff = none := by
  obtain ⟨_, hGrows, _⟩ := h.grows hOpen
  exact hGrows.isOpen hOpen

theorem Plan.Ran.entries (hUp : network.UpToDate p.account.address base accepted)
    {result : Except Stop Totals} (h : p.Ran network chainId w legs v result w')
    (hOpen : w.cutOff = none) : Entries base accepted w legs v ∧ v.Trails base accepted w' := by
  cases h with
  | completed hLegs => exact ⟨hLegs.entries hUp hOpen, (World.Idles.refl _).trails⟩
  | broken hLegs _ hStops =>
    refine ⟨hLegs.entries hUp hOpen, ?_, lags_of_prepare_stops hUp hStops⟩
    obtain ⟨made, hGrows, hCalls⟩ :=
      (p.makes_preparation network chainId _ (hLegs.isOpen hOpen)).first hStops
    rw [hGrows.submitted, filter_isSubmission_of_prefix hCalls, List.append_nil]

theorem Plan.Ran.ended_of_ok {totals : Totals}
    (h : p.Ran network chainId w legs v (.ok totals) w') (hOpen : w.cutOff = none) :
    v = w' ∧ w'.cutOff = none := by
  cases h with
  | completed hLegs => exact ⟨rfl, hLegs.isOpen hOpen⟩

theorem Legs.nil_or_cons {remaining left : Nat}
    (h : Legs network p chainId remaining w legs left v) :
    (legs = [] ∧ left = remaining ∧ v = w) ∨ ∃ leg rest, legs = leg :: rest ∧
      (p.preparation network chainId remaining).Returns w leg.batch leg.ready := by
  cases h with
  | nil => exact .inl ⟨rfl, rfl, rfl⟩
  | cons _ hPrepare _ _ => exact .inr ⟨_, _, rfl, hPrepare⟩

/-- A run whose first batch can be prepared begins with that batch. -/
theorem Plan.Ran.exists_first {result : Except Stop Totals} {batch : Batch} {ready : World σ}
    (h : p.Ran network chainId w legs v result w') (hCount : p.count.toNat ≠ 0)
    (hPrepare : (p.preparation network chainId p.count.toNat).Returns w batch ready) :
    ∃ leg rest, legs = leg :: rest ∧ leg.batch = batch := by
  cases h with
  | completed hLegs =>
    rcases hLegs.nil_or_cons with ⟨_, hNone, _⟩ | ⟨leg, rest, hAll, hFirst⟩
    · exact absurd hNone.symm hCount
    · exact ⟨leg, rest, hAll, (hFirst.unique hPrepare).1⟩
  | broken hLegs _ hStops =>
    rcases hLegs.nil_or_cons with ⟨_, rfl, rfl⟩ | ⟨leg, rest, hAll, hFirst⟩
    · exact absurd hStops hPrepare.not_stops
    · exact ⟨leg, rest, hAll, (hFirst.unique hPrepare).1⟩

/-- A run that completes has sent as many transfers as are planned. -/
theorem Plan.Ran.sum_sizes {totals : Totals}
    (h : p.Ran network chainId w legs v (.ok totals) w') :
    (legs.map Leg.size).sum = p.count.toNat := by
  cases h with
  | completed hLegs => exact hLegs.sum_sizes

/-- The world in which the cycle of a target begins. -/
def Firing.entered {β : Type} (firing : Firing σ β) : World σ :=
  { firing.fired with notices := firing.fired.notices ++ [.slotReached firing.target.toNat] }

/-- The cycle of a target that was waited for is a run, which leads on from the world in which the
wait began. -/
theorem Timetable.exists_ran (hUp : network.UpToDate p.account.address base accepted)
    (hOpen : w.cutOff = none) {clock : Clock} {genesis : Word64} {target : Target}
    {wait : Duration} {read fired ended : World σ} {outcome : Except Stop Totals}
    (hWait : (nextWait clock genesis target).Returns w wait read)
    (hAwait : (await target wait).Returns read () fired)
    (hCycle : fire (fun _ => p.send network chainId) target fired = (outcome, ended)) :
    ∃ legs v, p.Ran network chainId (Firing.entered ⟨target, w, fired, outcome, ended⟩) legs v
        outcome ended ∧
      Entries base accepted w legs v ∧ v.Trails base accepted ended ∧
      ∀ totals, outcome = .ok totals → v = ended ∧ ended.cutOff = none := by
  have hRead := (keeps_standing_nextWait accepted clock genesis target).of_returns hWait
  have hFired := (keeps_standing_await accepted target wait).of_returns hAwait
  have hEntered := (World.Idles.trans hRead hFired).trans
    (.noticed fired (rfl : (Notice.slotReached target.toNat).isLag = false))
  have hStart := hEntered.cutOff.trans hOpen
  obtain ⟨legs, v, hRan⟩ := p.send_ran network chainId hStart hCycle
  obtain ⟨hEntries, hTrails⟩ := hRan.entries hUp hStart
  refine ⟨legs, v, hRan, hEntries.after_idle hEntered, hTrails, ?_⟩
  rintro totals rfl
  exact hRan.ended_of_ok hStart

/-- The legs of the cycles of a timetable, taken together, are those of one list of entries. -/
theorem Timetable.Course.entries (hUp : network.UpToDate p.account.address base accepted)
    {clock : Clock} {genesis : Word64} {targets : List Target} {firings : List (Firing σ Totals)}
    {outcome : Except Stop Unit}
    (h : Course clock (fun _ => p.send network chainId) genesis w targets firings outcome w')
    (hOpen : w.cutOff = none) :
    ∃ cycles v, List.Forall₂ (fun firing legs =>
        ∃ last, p.Ran network chainId firing.entered legs last firing.outcome firing.ended)
        firings cycles ∧
      Entries base accepted w cycles.flatten v ∧ v.Trails base accepted w' := by
  induction h with
  | finished w => exact ⟨[], w, .nil, .nil (.refl w), (World.Idles.refl w).trails⟩
  | @unscheduled target _ w w' s hWait =>
    have hIdle : w.Idles accepted w' :=
      (keeps_standing_nextWait accepted clock genesis target).of_stops hWait
    exact ⟨[], w, .nil, .nil (.refl w), hIdle.trails⟩
  | @cut target _ wait s w read w' hWait hAwait =>
    have hRead := (keeps_standing_nextWait accepted clock genesis target).of_returns hWait
    have hStopped := (keeps_standing_await accepted target wait).of_stops hAwait
    exact ⟨[], w, .nil, .nil (.refl w), (World.Idles.trans hRead hStopped).trails⟩
  | failed hWait hAwait hCycle =>
    obtain ⟨legs, v, hRan, hEntries, hTrails, _⟩ := exists_ran hUp hOpen hWait hAwait hCycle
    refine ⟨[legs], v, .cons ⟨v, hRan⟩ .nil, ?_, hTrails⟩
    rw [List.flatten_singleton]
    exact hEntries
  | fired hWait hAwait hCycle _ ih =>
    obtain ⟨legs, v, hRan, hEntries, _, hEnd⟩ := exists_ran hUp hOpen hWait hAwait hCycle
    obtain ⟨rfl, hEnded⟩ := hEnd _ rfl
    obtain ⟨cycles, u, hRans, hMore, hTrails⟩ := ih hEnded
    exact ⟨legs :: cycles, u, .cons ⟨_, hRan⟩ hRans, hEntries.trans hMore, hTrails⟩

/-! ## What it comes to -/

theorem World.Trails.idles {u : World σ} (h : v.Trails base accepted w')
    (hIdle : w'.Idles accepted u) : v.Trails base accepted u where
  submitted := hIdle.submitted.trans h.submitted
  lags := by
    rw [hIdle.lags_eq]
    exact h.lags

/-- The legs that lead from `w` to `w'` account for all nonces and warnings, where the pending count
was `base` to begin with. -/
structure Accounts (base : Nat) (w : World σ) (legs : List (Leg σ)) (w' : World σ) : Prop where
  /-- Every batch begins where the transfers that were sent before it end. -/
  nonces : ∀ before leg after, legs = before ++ leg :: after →
    leg.batch.nonces = (List.range leg.size).map (base + (Leg.totals before).sent + ·)
  signed : ∀ leg ∈ legs, leg.batch.Signed
  accounted : ∀ leg ∈ legs, leg.report.sent + leg.report.failed = leg.size
  submitted : w'.submitted =
    w.submitted ++ legs.flatMap fun leg => submissionCalls leg.batch.transfers
  /-- A warning comes before a batch exactly if transfers of the batch before it failed, and tells
  how many. -/
  warned : legs.IsChain fun leg next => next.lags = lagsOf leg.report.failed
  warned_first : ∀ leg ∈ legs.head?, leg.lags = []
  /-- Nothing else is warned of, except in the preparation of a further batch that is stopped. -/
  lags : ∃ last, w'.lags = w.lags ++ legs.flatMap Leg.lags ++ last ∧
    (last = [] ∨ last = lagsOf (legs.getLast?.elim 0 fun leg => leg.report.failed))
  flawless : (∀ leg ∈ legs, leg.report.failed = 0) →
    (legs.flatMap fun leg => leg.batch.nonces) =
        (List.range (legs.map Leg.size).sum).map (base + ·) ∧
      w'.lags = w.lags

theorem missing_of_fresh (hFresh : w.handedOut = 0) : w.missing base accepted = 0 := by
  unfold World.missing
  rw [hFresh]
  exact Nat.zero_sub _

theorem lags_of_trails (hTrails : v.Trails base accepted w') (h : Entries base accepted w legs v)
    (hFresh : w.handedOut = 0) : ∃ last, w'.lags = w.lags ++ legs.flatMap Leg.lags ++ last ∧
      (last = [] ∨ last = lagsOf (legs.getLast?.elim 0 fun leg => leg.report.failed)) := by
  have hLags := h.lags_eq
  have hMissing := h.missing_eq
  rw [missing_of_fresh hFresh] at hMissing
  rcases hTrails.lags with hNone | hSome
  · exact ⟨[], by rw [hNone, hLags, List.append_nil], .inl rfl⟩
  · exact ⟨_, by rw [hSome, hLags, hMissing], .inr rfl⟩

theorem Entries.accounts (h : Entries base accepted w legs v) (hTrails : v.Trails base accepted w')
    (hFresh : w.handedOut = 0) (hNone : accepted w.network = 0) : Accounts base w legs w' := by
  obtain ⟨last, hLags, hLast⟩ := lags_of_trails hTrails h hFresh
  exact
    { nonces := by
        rintro before leg after rfl
        rw [h.nonces_eq, hNone, Nat.zero_add]
      signed := fun leg hLeg => (h.booked leg hLeg).signed
      accounted := fun leg hLeg => (h.booked leg hLeg).accounted
      submitted := by rw [hTrails.submitted, h.submitted_eq]
      warned := h.isChain_lags
      warned_first := by
        intro leg hLeg
        obtain ⟨rest, rfl⟩ := List.head?_eq_some_iff.mp hLeg
        rw [h.lags_head, missing_of_fresh hFresh]
        rfl
      lags := ⟨last, hLags, hLast⟩
      flawless := by
        intro hAll
        obtain ⟨hNonces, hWarned⟩ := h.flawless (missing_of_fresh hFresh) hAll
        have hLastNone : last = [] := by
          rcases hLast with rfl | rfl
          · rfl
          · cases hEnd : legs.getLast? with
            | none => rfl
            | some leg =>
              show lagsOf leg.report.failed = []
              rw [hAll leg (List.mem_of_getLast? hEnd)]
              rfl
        rw [hNone, Nat.add_zero] at hNonces
        refine ⟨hNonces, ?_⟩
        rw [hLags, hWarned, hLastNone, List.append_nil, List.append_nil] }

theorem sum_sizes_of_ran {firings : List (Firing σ Totals)} {cycles : List (List (Leg σ))}
    {results : List Totals} (h : List.Forall₂ (fun firing legs =>
      ∃ last, p.Ran network chainId firing.entered legs last firing.outcome firing.ended)
      firings cycles) (hOutcomes : firings.map Firing.outcome = results.map .ok) :
    (cycles.flatten.map Leg.size).sum = firings.length * p.count.toNat := by
  induction h generalizing results with
  | nil => exact (Nat.zero_mul _).symm
  | @cons firing legs firings cycles hRan _ ih =>
    cases results with
    | nil => cases hOutcomes
    | cons result results =>
      obtain ⟨hFirst, hRest⟩ := List.cons.inj hOutcomes
      obtain ⟨last, hRan⟩ := hRan
      rw [hFirst] at hRan
      rw [List.flatten_cons, List.map_append, List.sum_append, hRan.sum_sizes, ih hRest,
        List.length_cons, Nat.succ_mul, Nat.add_comm]

/-- What sending at slots comes to is what its timetable comes to: the totals of the cycles are
added up, and no warning of a lag is given after them. -/
theorem Plan.sendAtSlots_cases {clock : Clock} {t : Timetable} {result : Except Stop Totals}
    (h : p.sendAtSlots network clock chainId t w = (result, w')) :
    ∃ results after u told,
      t.run clock (fun _ => p.send network chainId) w = ((results, after), u) ∧
      result = results.map (fun totals => totals.foldl Totals.add {}) ∧
      w' = { u with notices := u.notices ++ told } ∧ told.filter Notice.isLag = [] := by
  unfold sendAtSlots at h
  rw [Act.bind_apply] at h
  rcases hRun : t.run clock (fun _ => p.send network chainId) w with ⟨⟨s | totals, after⟩, u⟩
  · simp only [hRun] at h
    cases h
    exact ⟨_, _, _, [], rfl, rfl, by rw [List.append_nil], rfl⟩
  · simp only [hRun] at h
    cases h
    exact ⟨_, _, _, [.scheduleDone totals.length], rfl, rfl, rfl, rfl⟩

/-- On a chain that is up to date, a run accounts for its nonces, and so does a run at slots over
all its cycles. -/
theorem Plan.runs_account_for_nonces (hUp : network.UpToDate p.account.address base accepted)
    (hFresh : w.handedOut = 0) (hNone : accepted w.network = 0) (hOpen : w.cutOff = none) :
    (∀ result w', p.send network chainId w = (result, w') →
      ∃ legs v, p.Ran network chainId w legs v result w' ∧ Accounts base w legs w' ∧
        ∀ totals, result = .ok totals → (legs.map Leg.size).sum = p.count.toNat) ∧
    ∀ clock t result w', p.sendAtSlots network clock chainId t w = (result, w') →
      ∃ firings cycles u, Timetable.Course clock (fun _ => p.send network chainId) t.genesis w
          t.remaining firings (result.map fun _ => ()) u ∧
        List.Forall₂ (fun firing legs =>
          ∃ last, p.Ran network chainId firing.entered legs last firing.outcome firing.ended)
          firings cycles ∧
        Accounts base w cycles.flatten w' ∧
        ∀ totals, result = .ok totals →
          (cycles.flatten.map Leg.size).sum = t.remaining.length * p.count.toNat := by
  constructor
  · intro result w' hSend
    obtain ⟨legs, v, hRan⟩ := p.send_ran network chainId hOpen hSend
    obtain ⟨hEntries, hTrails⟩ := hRan.entries hUp hOpen
    refine ⟨legs, v, hRan, hEntries.accounts hTrails hFresh hNone, ?_⟩
    rintro totals rfl
    exact hRan.sum_sizes
  · intro clock t result w' hSend
    obtain ⟨results, after, u, told, hRun, rfl, rfl, hTold⟩ := sendAtSlots_cases hSend
    have hIdle : u.Idles accepted { u with notices := u.notices ++ told } :=
      congrArg (·, u.submitted, u.cutOff)
        (congrArg (·, accepted u.network) (books_of_notices told rfl rfl hTold))
    have hResult : (results.map fun _ => ()) =
        ((results.map fun totals => totals.foldl Totals.add {}).map fun _ => ()) := by
      cases results <;> rfl
    obtain ⟨firings, hCourse, hResults⟩ := Timetable.runFrom_course clock _ t.genesis t.passed
      t.remaining t.phase w hRun
    obtain ⟨cycles, v, hRans, hEntries, hTrails⟩ := hCourse.entries hUp hOpen
    rw [hResult] at hCourse
    refine ⟨firings, cycles, u, hCourse, hRans,
      hEntries.accounts (hTrails.idles hIdle) hFresh hNone, ?_⟩
    intro totals hTotals
    cases results with
    | error s => cases hTotals
    | ok found =>
      obtain ⟨hTargets, hOutcomes⟩ := hResults found rfl
      rw [sum_sizes_of_ran hRans hOutcomes, ← hTargets, List.length_map]

end Runs

/-- An endpoint that has seen seven transfers of the account before, and rejects every third payload
that is handed in. It counts the payloads and its acknowledgements. -/
def pickyChain : Network (Nat × Nat) where
  genesisTime _ s := (.now (.value 0), s)
  chainId s := (.now (.value 1), s)
  fees _ s := (⟨.now (.value 21000), .now (.value (some 1000)), .now (.value 1)⟩, s)
  pendingCount _ s :=
    (.now (if s.2 < 100 then .value (BitVec.ofNat 64 (7 + s.2)) else .fault .addOverflow), s)
  submit _ s :=
    (some (.now (if s.1 % 3 = 2 then .failure (.reverted "" none) else .value ⟨0⟩)),
      (s.1 + 1, s.2))
  acknowledge _ s := (s.1, s.2 + 1)

theorem upToDate_pickyChain (account : Address) : pickyChain.UpToDate account 7 Prod.snd where
  pending := by
    rintro ⟨handedIn, accepted⟩ count h
    change (if accepted < 100 then Answer.value (BitVec.ofNat 64 (7 + accepted))
      else .fault .addOverflow) = .value count at h
    split at h
    · cases h
      exact Nat.mod_eq_of_lt (by omega)
    · cases h
  acknowledge _ _ := rfl
  submit _ _ := rfl
  fees _ _ := rfl
  pendingCount _ := rfl

/-- The price there is constant, and the first three nonces are those from seven on. -/
theorem obtain_pickyChain (sender recipient : Address) (amount : Word256) :
    ∃ w', (Pricing.obtain pickyChain sender recipient amount).Returns { network := (0, 0) }
        ⟨25200, 2001, 1⟩ w' ∧
      ∃ u, (NonceRange.reserve pickyChain sender 3).Returns w' ⟨7, 10⟩ u :=
  ⟨_, rfl, _, rfl⟩

theorem Plan.exists_preparation_pickyChain : ∃ batch w',
    (sevenByThree.preparation pickyChain 1 7).Returns { network := (0, 0) } batch w' := by
  obtain ⟨w', hPricing, u, hRange⟩ := obtain_pickyChain sevenByThree.account.address
    sevenByThree.recipient sevenByThree.amount
  exact Batch.exists_returns_prepare hPricing hRange (by decide)

/-- The accounts of seven transfers in batches of three, of which every third is rejected. The first
batch has the nonces from seven on. -/
theorem Plan.sevenByThree_accounts :
    pickyChain.UpToDate sevenByThree.account.address 7 Prod.snd ∧
      ∃ result w' leg legs v, sevenByThree.send pickyChain 1 { network := (0, 0) } = (result, w') ∧
        sevenByThree.Ran pickyChain 1 { network := (0, 0) } (leg :: legs) v result w' ∧
        Accounts 7 { network := (0, 0) } (leg :: legs) w' ∧ leg.batch.nonces = [7, 8, 9] := by
  have hUp := upToDate_pickyChain sevenByThree.account.address
  obtain ⟨batch, ready, hPrepare⟩ := exists_preparation_pickyChain
  rcases hSend : sevenByThree.send pickyChain 1 { network := (0, 0) } with ⟨result, w'⟩
  obtain ⟨legs, v, hRan, hAccounts, _⟩ := (runs_account_for_nonces hUp rfl rfl rfl).1 _ _ hSend
  obtain ⟨leg, rest, rfl, rfl⟩ := hRan.exists_first (by decide) hPrepare
  have hSize : leg.size = 3 := size_of_returns_preparation hPrepare
  have hNonces := hAccounts.nonces [] leg rest rfl
  rw [hSize] at hNonces
  exact ⟨hUp, result, w', leg, rest, v, rfl, hRan, hAccounts, hNonces⟩

end TxLoad

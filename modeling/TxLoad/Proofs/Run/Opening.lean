import TxLoad.Endpoint.Genesis
import TxLoad.Endpoint.Pool
import TxLoad.Proofs.Run.Cycles

/-! # How a run opens

A run opens in three stages. The plan is checked; if it has targets, the consensus endpoint is asked
for the genesis time; and the chain is asked for its id. A stage that fails ends the run, and the
calls of the stages after it are not made. `Plan.execute_opens` says so, and that a run which is
under way asks for neither of the two again. A plan that has passed its check gives no more reason
to complain of the settings: if a run of it ends with such a complaint, that is the answer which the
chain gave to the last call.
-/

namespace TxLoad

variable {σ α β : Type}

/-- The calls by which a run opens. -/
def Call.isOpening : Call → Bool
  | .genesis _ | .chainId => true
  | _ => false

def Call.isGenesis : Call → Bool
  | .genesis _ => true
  | _ => false

/-- The request for the genesis time is answered with the time or with a failure of its own kind. -/
def Network.TellsGenesis (network : Network σ) : Prop :=
  ∀ url s, (∃ time, (network.genesisTime url s).1.answer = .value time) ∨
    ∃ cause, (network.genesisTime url s).1.answer = .failure (.genesis cause)

/-- The network of a pool is one of these, whatever the consensus node replies. -/
theorem Endpoint.Pool.tellsGenesis_network (pool : Endpoint.Pool) (nodes : Endpoint.Nodes σ)
    (genesis : String → σ → Except GenesisError Word64 × σ) :
    (pool.network nodes genesis).TellsGenesis := by
  intro url s
  dsimp only [network]
  rcases genesis url s.nodes with ⟨cause | time, after⟩
  · exact .inr ⟨cause, rfl⟩
  · exact .inl ⟨time, rfl⟩

/-! ## Failures that the chain answers with -/

/-- The chain answers these calls with a failure and is left in a state. Of the reads of a price, it
is that of the base fee or that of the priority fee which fails. -/
inductive Network.Refuses (network : Network σ) (f : Failure) : List Call → σ → Prop
  | chainId {s : σ} (hAnswer : (network.chainId s).1.answer = .failure f) :
      Refuses network f [.chainId] (network.chainId s).2
  | baseFee {probe : CallObject} {s : σ}
      (hAnswer : (network.fees probe s).1.baseFee.answer = .failure f) :
      Refuses network f (feeCalls probe) (network.fees probe s).2
  | priorityFee {probe : CallObject} {s : σ}
      (hAnswer : (network.fees probe s).1.priorityFee.answer = .failure f) :
      Refuses network f (feeCalls probe) (network.fees probe s).2
  | pendingCount {account : Address} {s : σ}
      (hAnswer : (network.pendingCount account s).1.answer = .failure f) :
      Refuses network f [.pendingCount account] (network.pendingCount account s).2

theorem Answer.toExcept_eq_failure_iff {answer : Answer α} {f : Failure} :
    answer.toExcept = .error (.failure f) ↔ answer = .failure f := by
  cases answer <;> simp [toExcept]

theorem Act.stops_ask {call : Call} {f : σ → Reply α × σ} {w w' : World σ} {s : Stop}
    (hOpen : w.cutOff = none) (h : (ask call f : Act σ α).Stops w s w') :
    (f w.network).1.answer.toExcept = .error s ∧ (f w.network).2 = w'.network ∧
      w'.calls = w.calls ++ [(w.now, call)] := by
  obtain ⟨hAnswer, hWorld⟩ := Prod.mk.inj ((ask_apply call f hOpen).symm.trans h)
  subst hWorld
  exact ⟨hAnswer, rfl, rfl⟩

/-- A call in an open world is made, and it returns or stops as the endpoint answers. -/
theorem Act.exists_asked (call : Call) (f : σ → Reply α × σ) {w : World σ}
    (hOpen : w.cutOff = none) :
    ∃ v, w.Grows [(w.now, call)] v ∧ (f w.network).2 = v.network ∧
      ((∃ a, (f w.network).1.answer = .value a ∧ (ask call f : Act σ α).Returns w a v) ∨
        ∃ s, (f w.network).1.answer.toExcept = .error s ∧ (ask call f : Act σ α).Stops w s v) := by
  have hAsk := ask_apply call f hOpen
  refine ⟨(ask call f w).2, ?_, (network_ask call f w).symm, ?_⟩
  · rw [hAsk]
    show w.Grows ([call].map fun call => (w.now, call)) _
    exact .of_logged rfl rfl (Nat.le_add_right _ _)
  · cases hAnswer : (f w.network).1.answer.toExcept with
    | ok a =>
      refine .inl ⟨a, Answer.toExcept_eq_ok_iff.mp hAnswer, ?_⟩
      unfold Returns
      rw [hAsk, hAnswer]
    | error s =>
      refine .inr ⟨s, rfl, ?_⟩
      unfold Stops
      rw [hAsk, hAnswer]

namespace Pricing

theorem stops_gasLimitOf {answer : Answer Word256} {w w' : World σ} {s : Stop}
    (h : (gasLimitOf answer : Act σ Word256).Stops w s w') : ∃ f, s = .fault f := by
  cases answer with
  | value estimate =>
    obtain ⟨f, _, rfl, _⟩ := Act.stops_ofFault.mp h
    exact ⟨f, rfl⟩
  | failure f =>
    rcases Act.stops_bind.mp h with h | ⟨_, _, _, h⟩
    · exact absurd h Act.not_stops_notice
    rcases Act.stops_bind.mp h with h | ⟨_, _, _, h⟩
    · exact absurd h Act.not_stops_count
    · exact absurd h Act.not_stops_pure
  | fault f => exact ⟨f, (Act.stops_throw.mp h).1⟩

/-- The answers to the reads of a price fail by themselves only where a block has no base fee. -/
theorem stops_ofAnswers
    {answers : Answer Word256 × Answer (Option Word256) × Answer Word256} {w w' : World σ}
    {f : Failure} (h : (ofAnswers answers).Stops w (.failure f) w') :
    answers.2.1 = .failure f ∨ answers.2.2 = .failure f ∨ f = .pricing .noBaseFee := by
  obtain ⟨estimate, baseFee, priorityFee⟩ := answers
  rcases Act.stops_bind.mp h with h | ⟨_, _, _, h⟩
  · obtain ⟨_, hFault⟩ := stops_gasLimitOf h
    cases hFault
  rcases Act.stops_bind.mp h with h | ⟨_, _, _, h⟩
  · obtain ⟨hBase, _⟩ := Act.stops_ofExcept.mp h
    cases baseFee with
    | value fee =>
      cases fee with
      | some fee => cases hBase
      | none =>
        cases hBase
        exact .inr (.inr rfl)
    | failure g =>
      cases hBase
      exact .inl rfl
    | fault g => cases hBase
  rcases Act.stops_bind.mp h with h | ⟨_, _, _, h⟩
  · exact .inr (.inl (Answer.toExcept_eq_failure_iff.mp (Act.stops_ofExcept.mp h).1))
  rcases Act.stops_bind.mp h with h | ⟨_, _, _, h⟩
  · obtain ⟨_, _, hFault, _⟩ := Act.stops_ofFault.mp h
    cases hFault
  rcases Act.stops_bind.mp h with h | ⟨_, _, _, h⟩
  · exact absurd h Act.not_stops_notice
  · exact absurd h Act.not_stops_pure

theorem stops_obtain {network : Network σ} {sender recipient : Address} {amount : Word256}
    {w w' : World σ} {f : Failure} (hOpen : w.cutOff = none)
    (h : (obtain network sender recipient amount).Stops w (.failure f) w') :
    f = .pricing .noBaseFee ∨
      (network.Refuses f (feeCalls (probe sender recipient amount)) w'.network ∧
        w'.calls = w.calls ++
          (feeCalls (probe sender recipient amount)).map fun call => (w.now, call)) := by
  have hFees := Act.askFees_apply network (probe sender recipient amount) hOpen
  cases hFirst : (network.fees (probe sender recipient amount) w.network).1.firstFault? with
  | some first =>
    -- a fault of one read ends the action before any failure shows
    have hAnswers : (network.fees (probe sender recipient amount) w.network).1.answers =
        .error (.fault first.2) := by
      unfold FeeReplies.answers
      rw [hFirst]
    rw [hAnswers] at hFees
    rcases Act.stops_bind.mp h with h | ⟨answers, v, hReads, _⟩
    · cases hFees.symm.trans h
    · cases hFees.symm.trans hReads
  | none =>
    have hAnswers : (network.fees (probe sender recipient amount) w.network).1.answers =
        .ok ((network.fees (probe sender recipient amount) w.network).1.gas.answer,
          (network.fees (probe sender recipient amount) w.network).1.baseFee.answer,
          (network.fees (probe sender recipient amount) w.network).1.priorityFee.answer) := by
      unfold FeeReplies.answers
      rw [hFirst]
    rw [hAnswers, FeeReplies.started_of_firstFault?_eq_none hFirst] at hFees
    rw [obtain_eq] at h
    rcases Act.stops_bind.mp h with h | ⟨answers, v, hReads, h⟩
    · cases hFees.symm.trans h
    · obtain ⟨hOk, rfl⟩ := Prod.mk.inj (hFees.symm.trans hReads)
      obtain rfl := Except.ok.inj hOk
      have hKeeps : ∀ answers, Act.Keeps (fun w : World σ => (w.network, w.calls))
          (ofAnswers answers) :=
        keeps_ofAnswers (fun _ _ => rfl) (fun _ _ _ => rfl) (fun _ => rfl)
      have hSame := (hKeeps _).of_stops h
      obtain ⟨hNetwork, hCalls⟩ := Prod.mk.inj hSame
      rcases stops_ofAnswers h with hBase | hPriority | hNone
      · exact .inr ⟨hNetwork ▸ .baseFee hBase, hCalls⟩
      · exact .inr ⟨hNetwork ▸ .priorityFee hPriority, hCalls⟩
      · exact .inl hNone

end Pricing

namespace NonceRange

theorem stops_handOut {pending size : Word64} {w w' : World σ} {s : Stop}
    (h : (handOut pending size : Act σ NonceRange).Stops w s w') : ∃ f, s = .fault f := by
  rcases Act.stops_bind.mp h with h | ⟨_, _, _, h⟩
  · obtain ⟨f, _, rfl, _⟩ := Act.stops_ofFault.mp h
    exact ⟨f, rfl⟩
  rcases Act.stops_bind.mp h with h | ⟨_, _, _, h⟩
  · exact absurd h Act.not_stops_modify
  rcases Act.stops_bind.mp h with h | ⟨_, _, _, h⟩
  · exact absurd h Act.not_stops_notice
  · exact absurd h Act.not_stops_pure

theorem stops_reserve {network : Network σ} {account : Address} {size : Word64} {w w' : World σ}
    {f : Failure} (hOpen : w.cutOff = none)
    (h : (reserve network account size).Stops w (.failure f) w') :
    f = .internal .emptyRange ∨ (network.Refuses f [.pendingCount account] w'.network ∧
      w'.calls = w.calls ++ [(w.now, .pendingCount account)]) := by
  by_cases hSize : size = 0
  · subst hSize
    have hEmpty : reserve network account 0 w = (.error (.failure (.internal .emptyRange)), w) :=
      rfl
    cases hEmpty.symm.trans h
    exact .inl rfl
  rw [reserve_of_ne_zero network account hSize] at h
  rcases Act.stops_bind.mp h with h | ⟨pending, v, _, h⟩
  · obtain ⟨hAnswer, hNetwork, hCalls⟩ := Act.stops_ask hOpen h
    exact .inr ⟨hNetwork ▸ .pendingCount (Answer.toExcept_eq_failure_iff.mp hAnswer), hCalls⟩
  rcases Act.stops_bind.mp h with h | ⟨_, _, _, h⟩
  · exact absurd h Act.not_stops_get
  -- with or without the warning, only a fault can come of handing out the range
  have hFault : ∃ g, Stop.failure f = .fault g := by
    split at h
    · rcases Act.stops_bind.mp h with h | ⟨_, _, _, h⟩
      · exact absurd h Act.not_stops_notice
      · exact stops_handOut h
    · exact stops_handOut h
  obtain ⟨_, hFault⟩ := hFault
  cases hFault

end NonceRange

/-! ## A run under way -/

/-- Between `w` and `w'` a run prepares and submits batches. If it stops with a failure of the
settings, that is the answer to its last calls. -/
def World.Proceeds (network : Network σ) (w : World σ) (result : Except Stop α) (w' : World σ) :
    Prop :=
  ∃ made, w.Grows made w' ∧ (∀ call ∈ made, call.2.isOpening = false) ∧
    ∀ f, result = .error (.failure f) → f.isConfiguration = true →
      ∃ calls, calls <:+ made.map Prod.snd ∧ network.Refuses f calls w'.network

section Proceeds

variable {network : Network σ} {p : Plan} {chainId : Word64} {w v w' : World σ}

theorem World.Grows.made_eq {made more : List (Duration × Call)} (h : w.Grows made w')
    (hCalls : w'.calls = w.calls ++ more) : made = more :=
  List.append_cancel_left (h.calls_eq.symm.trans hCalls)

/-- What ends without a failure of the settings has nothing to answer for. -/
theorem World.Proceeds.of_grows {made : List (Duration × Call)} {result : Except Stop α}
    (hGrows : w.Grows made w') (hMade : ∀ call ∈ made, call.2.isOpening = false)
    (hResult : ∀ f, result = .error (.failure f) → f.isConfiguration = false) :
    w.Proceeds network result w' := by
  refine ⟨made, hGrows, hMade, fun f hStop hConf => ?_⟩
  rw [hResult f hStop] at hConf
  cases hConf

/-- It does not matter of which kind the result would have been. -/
theorem World.Proceeds.of_stop {s : Stop} (h : w.Proceeds network (.error s : Except Stop α) w') :
    w.Proceeds network (.error s : Except Stop β) w' := by
  obtain ⟨made, hGrows, hMade, hAnswered⟩ := h
  refine ⟨made, hGrows, hMade, fun f hStop => hAnswered f ?_⟩
  rw [Except.error.inj hStop]

theorem World.Proceeds.after {made : List (Duration × Call)} {result : Except Stop α}
    (h : v.Proceeds network result w') (hGrows : w.Grows made v)
    (hMade : ∀ call ∈ made, call.2.isOpening = false) : w.Proceeds network result w' := by
  obtain ⟨more, hMore, hCalls, hAnswered⟩ := h
  refine ⟨made ++ more, hGrows.trans hMore, ?_, fun f hStop hConf => ?_⟩
  · intro call hCall
    rcases List.mem_append.mp hCall with hCall | hCall
    · exact hMade call hCall
    · exact hCalls call hCall
  · obtain ⟨calls, hLast, hRefuses⟩ := hAnswered f hStop hConf
    refine ⟨calls, ?_, hRefuses⟩
    rw [List.map_append]
    exact hLast.trans (List.suffix_append _ _)

theorem isOpening_of_mem_leg {call : Call} {leg : Leg σ} (h : call ∈ Leg.calls p chainId leg) :
    call.isOpening = false := by
  simp only [Leg.calls, Batch.preparationCalls, feeCalls, submissionCalls, List.mem_append,
    List.mem_cons, List.mem_map, List.not_mem_nil, or_false] at h
  rcases h with ((rfl | rfl | rfl) | rfl) | ⟨_, _, rfl⟩ <;> rfl

theorem isOpening_of_prefix {account : Account} {terms : TransferTerms}
    {made : List (Duration × Call)}
    (h : made.map Prod.snd <+: Batch.preparationCalls account terms) :
    ∀ call ∈ made, call.2.isOpening = false := by
  intro call hCall
  have hMem := h.subset (List.mem_map_of_mem hCall)
  simp only [Batch.preparationCalls, feeCalls, List.mem_append, List.mem_cons, List.not_mem_nil,
    or_false] at hMem
  rcases hMem with (hCall | hCall | hCall) | hCall <;> rw [hCall] <;> rfl

/-- A preparation that stops. -/
theorem Batch.proceeds_of_stops {account : Account} {terms : TransferTerms} {size : Word64}
    {s : Stop} (hOpen : w.cutOff = none)
    (h : (prepare network account terms size).Stops w s w') :
    w.Proceeds network (.error s : Except Stop Batch) w' := by
  obtain ⟨made, hGrows, hPrefix⟩ := (makes_prepare network account terms size hOpen).first h
  refine ⟨made, hGrows, isOpening_of_prefix hPrefix, fun f hStop hConf => ?_⟩
  cases hStop
  rw [prepare_eq] at h
  have hObtain := Pricing.makes_obtain network account.address terms.recipient terms.amount hOpen
  rcases Act.stops_bind.mp h with h | ⟨pricing, v, hPrice, h⟩
  · rcases Pricing.stops_obtain hOpen h with rfl | ⟨hRefuses, hCalls⟩
    · cases hConf
    · refine ⟨_, ?_, hRefuses⟩
      rw [hGrows.made_eq hCalls, List.map_map]
      exact (List.map_id _).symm ▸ List.suffix_rfl
  · have hPriced := hObtain.all_open hOpen hPrice
    rcases Act.stops_bind.mp h with h | ⟨nonces, u, _, h⟩
    · rcases NonceRange.stops_reserve hPriced h with rfl | ⟨hRefuses, hCalls⟩
      · cases hConf
      · obtain ⟨before, hBefore, _⟩ := hObtain.all hPrice
        rw [hBefore.calls_eq, List.append_assoc] at hCalls
        refine ⟨_, ?_, hRefuses⟩
        rw [hGrows.made_eq hCalls, List.map_append]
        exact List.suffix_append _ _
    rcases Act.stops_bind.mp h with h | ⟨_, _, _, h⟩
    · obtain ⟨_, _, hSign⟩ := exists_of_mapM_eq_error (Act.stops_ofExcept.mp h).1
      obtain ⟨_, hFault⟩ := fault_of_sign_eq_error hSign
      cases hFault
    rcases Act.stops_bind.mp h with h | ⟨_, _, _, h⟩
    · exact absurd h Act.not_stops_notice
    · exact absurd h Act.not_stops_pure

theorem Plan.Ran.proceeds {legs : List (Leg σ)} {result : Except Stop Totals}
    (h : p.Ran network chainId w legs v result w') (hOpen : w.cutOff = none) :
    w.Proceeds network result w' := by
  have hLegs : ∀ made : List (Duration × Call),
      made.map Prod.snd = legs.flatMap (Leg.calls p chainId) →
        ∀ call ∈ made, call.2.isOpening = false := by
    intro made hCalls call hCall
    obtain ⟨leg, _, hMem⟩ := List.mem_flatMap.mp (hCalls ▸ List.mem_map_of_mem hCall)
    exact isOpening_of_mem_leg hMem
  cases h with
  | completed hCourse =>
    obtain ⟨made, hMade, hCalls⟩ := hCourse.grows hOpen
    exact .of_grows hMade (hLegs made hCalls) fun f hStop => by cases hStop
  | broken hCourse _ hStops =>
    obtain ⟨made, hMade, hCalls⟩ := hCourse.grows hOpen
    have hLast := Batch.proceeds_of_stops (hMade.isOpen hOpen) hStops
    exact hLast.of_stop.after hMade (hLegs made hCalls)

namespace Timetable

variable {clock : Clock} {genesis : Word64}

theorem makes_nextWait (clock : Clock) (genesis : Word64) (target : Target) (w : World σ) :
    (nextWait clock genesis target : Act σ Duration).Makes w [] := by
  refine Act.makes_bind_silent ?_ fun now v _ => Act.makes_ofFault _ v
  refine Act.makes_nothing ?_ ?_
  · intro now v h
    cases h
    exact ⟨rfl, rfl, rfl⟩
  · intro s v h
    cases h

theorem makes_await (target : Target) (wait : Duration) (hOpen : w.cutOff = none) :
    (await target wait : Act σ Unit).Makes w [] := by
  refine Act.makes_bind_silent (Act.makes_count _ w) fun _ v hCount => ?_
  have hv : v.cutOff = none := (Act.makes_count _ w).all_open hOpen hCount
  refine Act.makes_bind_silent (Act.makes_notice _ v) fun _ u hNotice => ?_
  exact Act.makes_sleep wait ((Act.makes_notice _ v).all_open hv hNotice)

/-- A cycle that is waited for is a run. -/
theorem proceeds_cycle {target : Target} {wait : Duration} {read fired ended : World σ}
    {outcome : Except Stop Totals} (hOpen : w.cutOff = none)
    (hWait : (nextWait clock genesis target).Returns w wait read)
    (hAwait : (await target wait).Returns read () fired)
    (hCycle : fire (fun _ => p.send network chainId) target fired = (outcome, ended)) :
    w.Proceeds network outcome ended := by
  obtain ⟨before, hRead, hBefore⟩ := (makes_nextWait clock genesis target w).all hWait
  obtain ⟨during, hFired, hDuring⟩ := (makes_await target wait (hRead.isOpen hOpen)).all hAwait
  obtain rfl := List.map_eq_nil_iff.mp hBefore
  obtain rfl := List.map_eq_nil_iff.mp hDuring
  have hEntered : fired.Grows [] (Firing.entered ⟨target, w, fired, outcome, ended⟩) :=
    .silent rfl rfl (Nat.le_refl _)
  have hGrows := (hRead.trans hFired).trans hEntered
  obtain ⟨legs, v, hRan⟩ := p.send_ran network chainId (hGrows.isOpen hOpen) hCycle
  exact (hRan.proceeds (hGrows.isOpen hOpen)).after hGrows fun _ hCall => by cases hCall

theorem stops_nextWait {target : Target} {s : Stop}
    (h : (nextWait clock genesis target : Act σ Duration).Stops w s w') : ∃ f, s = .fault f := by
  rcases Act.stops_bind.mp h with h | ⟨_, _, _, h⟩
  · cases h
  · obtain ⟨f, _, rfl, _⟩ := Act.stops_ofFault.mp h
    exact ⟨f, rfl⟩

theorem Course.proceeds {targets : List Target} {firings : List (Firing σ Totals)}
    {outcome : Except Stop Unit}
    (h : Course clock (fun _ => p.send network chainId) genesis w targets firings outcome w')
    (hOpen : w.cutOff = none) : w.Proceeds network outcome w' := by
  induction h with
  | finished w =>
    exact .of_grows (.refl w) (fun _ hCall => by cases hCall) fun f hStop => by cases hStop
  | @unscheduled target _ w w' s hWait =>
    obtain ⟨fault, rfl⟩ := stops_nextWait hWait
    obtain ⟨made, hGrows, hNone⟩ := (makes_nextWait clock genesis target w).first hWait
    obtain rfl := List.map_eq_nil_iff.mp (List.prefix_nil.mp hNone)
    exact .of_grows hGrows (fun _ hCall => by cases hCall) fun f hStop => by cases hStop
  | cut hWait hAwait => exact absurd hAwait (not_stops_await (open_read hOpen hWait))
  | failed hWait hAwait hCycle => exact (proceeds_cycle hOpen hWait hAwait hCycle).of_stop
  | fired hWait hAwait hCycle _ ih =>
    obtain ⟨hFired, _⟩ := returns_await hAwait (open_read hOpen hWait)
    obtain ⟨made, hGrows, hCalls, _⟩ := proceeds_cycle hOpen hWait hAwait hCycle
    exact (ih (isOpen_ended hFired hCycle)).after hGrows hCalls

end Timetable

end Proceeds

/-- What is told afterwards changes nothing. -/
theorem World.Proceeds.told {network : Network σ} {w v : World σ} {before : Except Stop α}
    {result : Except Stop β} (h : w.Proceeds network before v)
    (hStop : ∀ s, result = .error s → before = .error s) (notices : List Notice) :
    w.Proceeds network result { v with notices := v.notices ++ notices } := by
  obtain ⟨made, hGrows, hMade, hAnswered⟩ := h
  have hTold : v.Grows [] { v with notices := v.notices ++ notices } :=
    .silent rfl rfl (Nat.le_refl _)
  exact ⟨made, made.append_nil ▸ hGrows.trans hTold, hMade, fun f hEnd =>
    hAnswered f (hStop _ hEnd)⟩

namespace Plan

variable {network : Network σ} {clock : Clock} {p : Plan} {w w' : World σ}

theorem proceeds_sendAtSlots {chainId : Word64} {t : Timetable} {result : Except Stop Totals}
    (hOpen : w.cutOff = none) (h : p.sendAtSlots network clock chainId t w = (result, w')) :
    w.Proceeds network result w' := by
  obtain ⟨results, after, u, told, hRun, rfl, rfl, _⟩ := sendAtSlots_cases h
  obtain ⟨firings, hCourse, _⟩ := Timetable.runFrom_course _ _ t.genesis t.passed t.remaining
    t.phase w hRun
  refine (hCourse.proceeds hOpen).told (fun s hStop => ?_) told
  cases results with
  | error _ => exact congrArg Except.error (Except.error.inj hStop)
  | ok _ => cases hStop

/-- The transfers of a run, at the slots of a timetable if there is one. -/
def sendOn (network : Network σ) (clock : Clock) (p : Plan) (chainId : Word64) :
    Option Timetable → Act σ Totals
  | some timetable => p.sendAtSlots network clock chainId timetable
  | none => p.send network chainId

theorem proceeds_sendOn {chainId : Word64} {timetable : Option Timetable}
    {result : Except Stop Totals} (hOpen : w.cutOff = none)
    (h : p.sendOn network clock chainId timetable w = (result, w')) :
    w.Proceeds network result w' := by
  cases timetable with
  | none =>
    obtain ⟨legs, v, hRan⟩ := p.send_ran network chainId hOpen h
    exact hRan.proceeds hOpen
  | some timetable => exact proceeds_sendAtSlots hOpen h

/-- What is left of a run once the chain's id is known. -/
def identified (network : Network σ) (clock : Clock) (p : Plan) (timetable : Option Timetable)
    (chainId : Word64) : Act σ Totals := do
  Act.notice (.runPrepared chainId p.account.address p.recipient p.amount)
  let totals ← p.sendOn network clock chainId timetable
  Act.notice (.runDone totals.batches totals.sent totals.failed)
  return totals

theorem execute_eq (network : Network σ) (clock : Clock) (p : Plan) :
    p.execute network clock = (do
      Act.ofExcept (p.check.mapError .failure)
      let timetable ← p.obtainTimetable network
      let chainId ← Act.ask .chainId network.chainId
      p.identified network clock timetable chainId) := by
  unfold execute identified sendOn
  refine congrArg _ (funext fun _ => congrArg _ (funext fun timetable => ?_))
  cases timetable <;> rfl

theorem proceeds_identified {timetable : Option Timetable} {chainId : Word64}
    {result : Except Stop Totals} (hOpen : w.cutOff = none)
    (h : p.identified network clock timetable chainId w = (result, w')) :
    w.Proceeds network result w' := by
  have hTold : ∀ {u : Unit} {v : World σ}, (Act.notice (.runPrepared chainId p.account.address
      p.recipient p.amount) : Act σ Unit).Returns w u v → w.Grows [] v := by
    intro u v hNotice
    obtain rfl := Act.returns_notice.mp hNotice
    exact .silent rfl rfl (Nat.le_refl _)
  cases result with
  | error s =>
    rcases Act.stops_bind.mp h with h | ⟨_, v, hNotice, h⟩
    · exact absurd h Act.not_stops_notice
    have hGrows := hTold hNotice
    rcases Act.stops_bind.mp h with h | ⟨_, _, _, h⟩
    · exact (proceeds_sendOn (hGrows.isOpen hOpen) h).after hGrows fun _ hCall => by cases hCall
    rcases Act.stops_bind.mp h with h | ⟨_, _, _, h⟩
    · exact absurd h Act.not_stops_notice
    · exact absurd h Act.not_stops_pure
  | ok totals =>
    obtain ⟨_, v, hNotice, h⟩ := Act.returns_bind.mp h
    have hGrows := hTold hNotice
    obtain ⟨sent, u, hSend, h⟩ := Act.returns_bind.mp h
    obtain ⟨_, _, hDone, h⟩ := Act.returns_bind.mp h
    obtain rfl := Act.returns_notice.mp hDone
    obtain ⟨rfl, rfl⟩ := Act.returns_pure.mp h
    have hSent := proceeds_sendOn (hGrows.isOpen hOpen) hSend
    exact (hSent.told (fun _ hStop => hStop) _).after hGrows fun _ hCall => by cases hCall

/-! ## The stages -/

/-- A run asks for the genesis time if its plan has targets, and then has it; the endpoints come
from one state to another. -/
inductive AsksGenesis (network : Network σ) (p : Plan) (s : σ) : List Call → σ → Prop
  | untimed (hSlots : p.slots = []) : AsksGenesis network p s [] s
  | timed {url : String} {time : Word64} (hSlots : p.slots ≠ []) (hUrl : p.beacon = some url)
      (hAnswer : (network.genesisTime url s).1.answer = .value time) :
      AsksGenesis network p s [.genesis url] (network.genesisTime url s).2

/-- The calls and the end of a run that begins with the endpoints in state `s`: the plan is refused,
or the genesis time cannot be had, or the chain's id cannot, or the run gets under way. -/
inductive Opens (network : Network σ) (p : Plan) (s : σ) :
    List Call → Except Stop Totals → Prop
  | refused {f : Failure} (hCheck : p.check = .error f) :
      Opens network p s [] (.error (.failure f))
  | timeless {url : String} {cause : GenesisError} (hCheck : p.check = .ok ())
      (hSlots : p.slots ≠ []) (hUrl : p.beacon = some url)
      (hAnswer : (network.genesisTime url s).1.answer = .failure (.genesis cause)) :
      Opens network p s [.genesis url] (.error (.failure (.genesis cause)))
  | nameless {asked : List Call} {after : σ} {stop : Stop} (hCheck : p.check = .ok ())
      (hAsked : p.AsksGenesis network s asked after)
      (hAnswer : (network.chainId after).1.answer.toExcept = .error stop) :
      Opens network p s (asked ++ [.chainId]) (.error stop)
  | underway {asked rest : List Call} {after : σ} {chainId : Word64}
      {result : Except Stop Totals} (hCheck : p.check = .ok ())
      (hAsked : p.AsksGenesis network s asked after)
      (hAnswer : (network.chainId after).1.answer = .value chainId)
      (hRest : ∀ call ∈ rest, call.isOpening = false) :
      Opens network p s (asked ++ .chainId :: rest) result

/-- A plan that has passed its check has targets only with a consensus endpoint. -/
theorem beacon_of_check (hCheck : p.check = .ok ()) (hSlots : p.slots ≠ []) :
    ∃ url, p.beacon = some url := by
  cases hUrl : p.beacon with
  | some url => exact ⟨url, rfl⟩
  | none =>
    have hDefect : p.defect? ≠ none := by
      unfold defect?
      split
      · simp
      split
      · simp
      split
      · simp
      split
      · simp
      · simp [hSlots, hUrl]
    unfold check at hCheck
    cases hCase : p.defect? with
    | none => exact absurd hCase hDefect
    | some failure =>
      rw [hCase] at hCheck
      cases hCheck

/-- The genesis time is asked for only if there are targets, and then once. -/
theorem obtainTimetable_cases (hGenesis : network.TellsGenesis) (hCheck : p.check = .ok ())
    (hOpen : w.cutOff = none) :
    (∃ timetable v asked, (p.obtainTimetable network).Returns w timetable v ∧
      w.Grows (asked.map fun call => (w.now, call)) v ∧
      p.AsksGenesis network w.network asked v.network) ∨
    ∃ url cause v, (p.obtainTimetable network).Stops w (.failure (.genesis cause)) v ∧
      w.Grows [(w.now, .genesis url)] v ∧ p.slots ≠ [] ∧ p.beacon = some url ∧
      (network.genesisTime url w.network).1.answer = .failure (.genesis cause) := by
  cases hSlots : p.slots with
  | nil =>
    refine .inl ⟨none, w, [], ?_, .refl w, .untimed hSlots⟩
    unfold obtainTimetable
    rw [hSlots]
    cases p.beacon <;> rfl
  | cons target targets =>
    have hSome : p.slots ≠ [] := by
      rw [hSlots]
      exact List.cons_ne_nil _ _
    obtain ⟨url, hUrl⟩ := beacon_of_check hCheck hSome
    have hObtain : p.obtainTimetable network = (do
        let genesis ← Act.ask (.genesis url) (network.genesisTime url)
        Act.notice (.genesisFetched genesis)
        return some (.new genesis (target :: targets))) := by
      unfold obtainTimetable
      rw [hSlots, hUrl]
    obtain ⟨v, hGrows, hNetwork, hEnd⟩ :=
      Act.exists_asked (.genesis url) (network.genesisTime url) hOpen
    rw [hObtain]
    rcases hEnd with ⟨time, hTime, hReturns⟩ | ⟨stop, hStop, hStops⟩
    · have hTold : v.Grows [] { v with notices := v.notices ++ [.genesisFetched time] } :=
        .silent rfl rfl (Nat.le_refl _)
      refine .inl ⟨_, _, [.genesis url], Act.returns_bind.mpr ⟨time, v, hReturns, rfl⟩,
        hGrows.trans hTold, ?_⟩
      exact hNetwork ▸ .timed hSome hUrl hTime
    · rcases hGenesis url w.network with ⟨time, hTime⟩ | ⟨cause, hCause⟩
      · rw [hTime] at hStop
        cases hStop
      · rw [hCause] at hStop
        cases hStop
        exact .inr ⟨url, cause, v, Act.stops_bind.mpr (.inl hStops), hGrows,
          List.cons_ne_nil _ _, hUrl, hCause⟩

/-- From the read of the chain's id on. -/
theorem opens_of_asked (clock : Clock) (timetable : Option Timetable) {s : σ} {asked : List Call}
    {v : World σ} (hCheck : p.check = .ok ()) (hAsked : p.AsksGenesis network s asked v.network)
    (hOpen : v.cutOff = none) :
    ∃ result made w', (Act.ask .chainId network.chainId >>=
        p.identified network clock timetable) v = (result, w') ∧ v.Grows made w' ∧
      p.Opens network s (asked ++ made.map Prod.snd) result ∧
      ∀ f, result = .error (.failure f) → f.isConfiguration = true →
        ∃ calls, calls <:+ made.map Prod.snd ∧ network.Refuses f calls w'.network := by
  obtain ⟨u, hNamed, hNetwork, hEnd⟩ := Act.exists_asked .chainId network.chainId hOpen
  rcases hEnd with ⟨chainId, hAnswer, hReturns⟩ | ⟨stop, hAnswer, hStops⟩
  · rcases hRest : p.identified network clock timetable chainId u with ⟨result, w'⟩
    obtain ⟨made, hMade, hCalls, hAnswered⟩ := proceeds_identified (hNamed.isOpen hOpen) hRest
    refine ⟨result, _, w', ?_, hNamed.trans hMade, ?_, fun f hStop hConf => ?_⟩
    · rw [Act.bind_apply, show Act.ask .chainId network.chainId v = _ from hReturns]
      exact hRest
    · exact .underway hCheck hAsked hAnswer (List.forall_mem_map.mpr hCalls)
    · obtain ⟨calls, hLast, hRefuses⟩ := hAnswered f hStop hConf
      exact ⟨calls, hLast.trans (List.suffix_cons _ _), hRefuses⟩
  · refine ⟨_, _, u, Act.stops_bind.mpr (.inl hStops), hNamed, .nameless hCheck hAsked hAnswer,
      fun f hStop _ => ?_⟩
    cases hStop
    exact ⟨[.chainId], List.suffix_rfl,
      hNetwork ▸ .chainId (Answer.toExcept_eq_failure_iff.mp hAnswer)⟩

theorem AsksGenesis.countP_isGenesis {s after : σ} {asked : List Call}
    (h : p.AsksGenesis network s asked after) :
    asked.countP Call.isGenesis = if p.slots = [] then 0 else 1 := by
  cases h with
  | untimed hSlots => rw [if_pos hSlots, List.countP_nil]
  | timed hSlots _ _ =>
    rw [if_neg hSlots]
    rfl

/-- The genesis time is asked for exactly once if there are targets, and never if there are none. -/
theorem Opens.countP_isGenesis {s : σ} {calls : List Call} {result : Except Stop Totals}
    (h : p.Opens network s calls result) (hCheck : p.check = .ok ()) :
    calls.countP Call.isGenesis = if p.slots = [] then 0 else 1 := by
  cases h with
  | refused hRefused => cases hRefused.symm.trans hCheck
  | timeless _ hSlots _ _ =>
    rw [if_neg hSlots]
    rfl
  | nameless _ hAsked _ =>
    rw [List.countP_append, hAsked.countP_isGenesis]
    rfl
  | @underway asked rest after _ _ _ hAsked _ hRest =>
    have hNever : rest.countP Call.isGenesis = 0 := by
      refine List.countP_eq_zero.mpr fun call hCall hIs => ?_
      have hNot := hRest call hCall
      cases call with
      | genesis url => cases hNot
      | _ => cases hIs
    rw [List.countP_append, hAsked.countP_isGenesis,
      List.countP_cons_of_neg (by simp [Call.isGenesis]), hNever, Nat.add_zero]

/-- A run makes the calls of its stages in their order and ends with the first stage that fails.
Once the plan has passed its check, a failure of the settings can only be an answer of the chain. -/
theorem execute_opens (network : Network σ) (clock : Clock) (p : Plan) {w : World σ}
    (hGenesis : network.TellsGenesis) (hOpen : w.cutOff = none) :
    ∃ result made w', p.execute network clock w = (result, w') ∧ w.Grows made w' ∧
      p.Opens network w.network (made.map Prod.snd) result ∧
      (p.check = .ok () →
        (made.map Prod.snd).countP Call.isGenesis = (if p.slots = [] then 0 else 1) ∧
        ∀ f, result = .error (.failure f) → f.isConfiguration = true →
          ∃ calls, calls <:+ made.map Prod.snd ∧ network.Refuses f calls w'.network) := by
  rw [execute_eq]
  cases hCheck : p.check with
  | error f => exact ⟨_, [], w, rfl, .refl w, .refused hCheck, fun hOk => by cases hOk⟩
  | ok _ =>
    show ∃ result made w', (p.obtainTimetable network >>= fun timetable =>
      Act.ask .chainId network.chainId >>= p.identified network clock timetable) w =
        (result, w') ∧ _
    rcases obtainTimetable_cases hGenesis hCheck hOpen with
      ⟨timetable, v, asked, hTimetable, hGrows, hAsked⟩ |
        ⟨url, cause, v, hStops, hGrows, hSlots, hUrl, hCause⟩
    · obtain ⟨result, made, w', hRest, hMade, hOpens, hAnswered⟩ :=
        opens_of_asked clock timetable hCheck hAsked (hGrows.isOpen hOpen)
      have hCalls : ((asked.map fun call => (w.now, call)) ++ made).map Prod.snd =
          asked ++ made.map Prod.snd := by
        rw [List.map_append, List.map_map]
        exact congrArg (· ++ _) (List.map_id asked)
      rw [← hCalls] at hOpens
      refine ⟨result, _, w', ?_, hGrows.trans hMade, hOpens,
        fun _ => ⟨hOpens.countP_isGenesis hCheck, fun f hStop hConf => ?_⟩⟩
      · rw [Act.bind_apply, show p.obtainTimetable network w = _ from hTimetable]
        exact hRest
      · obtain ⟨calls, hLast, hRefuses⟩ := hAnswered f hStop hConf
        exact ⟨calls, hCalls ▸ hLast.trans (List.suffix_append _ _), hRefuses⟩
    · have hOpens : p.Opens network w.network [.genesis url] (.error (.failure (.genesis cause))) :=
        .timeless hCheck hSlots hUrl hCause
      refine ⟨_, _, v, Act.stops_bind.mpr (.inl hStops), hGrows, hOpens,
        fun _ => ⟨hOpens.countP_isGenesis hCheck, fun f hStop hConf => ?_⟩⟩
      cases hStop
      cases hConf

/-- Seven transfers at one target. -/
def atSlotThree : Plan :=
  { sevenByThree with endpoints := ["http://n"], slots := [3], beacon := some "http://b" }

/-- An endpoint that refuses to tell the chain's id. -/
def unnamed : Network Unit :=
  { blockless with chainId := fun s => (.now (.failure (.configuration .noUsableEndpoint)), s) }

theorem tellsGenesis_unnamed : unnamed.TellsGenesis := fun _ _ => .inl ⟨0, rfl⟩

/-- The genesis time is told and the chain's id is not, so the run ends after these two calls. -/
theorem atSlotThree_ends_unnamed :
    (unnamed.TellsGenesis ∧ ({ network := () } : World Unit).cutOff = none) ∧
      atSlotThree.check = .ok () ∧ ∃ made w',
        atSlotThree.execute unnamed (Timetable.steadyClock 0) { network := () } =
          (.error (.failure (.configuration .noUsableEndpoint)), w') ∧
        made.map Prod.snd = [.genesis "http://b", .chainId] ∧
        World.Grows { network := () } made w' ∧
        unnamed.Refuses (.configuration .noUsableEndpoint) [.chainId] w'.network := by
  have hCheck : atSlotThree.check = .ok () := by rfl
  refine ⟨⟨tellsGenesis_unnamed, rfl⟩, hCheck, ?_⟩
  obtain ⟨result, made, w', hRun, hGrows, hOpens, _⟩ := execute_opens unnamed
    (Timetable.steadyClock 0) atSlotThree (w := { network := () }) tellsGenesis_unnamed rfl
  generalize hMade : made.map Prod.snd = calls at hOpens
  cases hOpens with
  | refused hRefused => cases hRefused.symm.trans hCheck
  | timeless _ _ _ hAnswer => cases hAnswer
  | underway _ _ hAnswer _ => cases hAnswer
  | nameless _ hAsked hAnswer =>
    cases hAnswer
    refine ⟨made, w', hRun, ?_, hGrows, .chainId (s := ()) rfl⟩
    cases hAsked with
    | untimed hNone => cases hNone
    | timed _ hUrl _ =>
      cases hUrl
      exact hMade

end Plan

end TxLoad

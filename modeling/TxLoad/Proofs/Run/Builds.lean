import TxLoad.Proofs.Run.Decomposition
import TxLoad.Proofs.Run.Reservation

/-! # Batches that cannot be prepared

A batch that cannot be prepared leaves no trace: the batches that are prepared after it, and the
warnings that come with them, are the same as if it had never been tried. The reason is that a
preparation depends on nothing but the endpoints and the nonces that were handed out, and that one
which fails hands out none.
-/

namespace TxLoad

variable {σ α β : Type}

/-! ## What an action depends on -/

/-- The worlds agree in what a preparation can depend on, and neither is cut off. -/
structure World.Alike (w v : World σ) : Prop where
  network : v.network = w.network
  handedOut : v.handedOut = w.handedOut
  isOpen : w.cutOff = none
  isOpen' : v.cutOff = none

namespace Act

/-- In worlds that are alike, the action comes to the same, tells the same and leaves worlds that
are alike. -/
def Determined (x : Act σ α) : Prop :=
  ∀ w v : World σ, w.Alike v → (x v).1 = (x w).1 ∧ (x w).2.Alike (x v).2 ∧
    ∃ told, (x w).2.notices = w.notices ++ told ∧ (x v).2.notices = v.notices ++ told

theorem determined_bind {x : Act σ α} {f : α → Act σ β} (hx : Determined x)
    (hf : ∀ a, Determined (f a)) : Determined (x >>= f) := by
  intro w v hAlike
  obtain ⟨hSame, hAfter, told, hTold, hTold'⟩ := hx w v hAlike
  rw [bind_apply, bind_apply]
  rcases hw : x w with ⟨r, w'⟩
  rcases hv : x v with ⟨r', v'⟩
  rw [hw, hv] at hSame hAfter
  rw [hw] at hTold
  rw [hv] at hTold'
  obtain rfl : r' = r := hSame
  cases r' with
  | error s => exact ⟨rfl, hAfter, told, hTold, hTold'⟩
  | ok a =>
    obtain ⟨hEnd, hLast, more, hMore, hMore'⟩ := hf a _ _ hAfter
    refine ⟨hEnd, hLast, told ++ more, hMore.trans ?_, hMore'.trans ?_⟩
    · rw [← List.append_assoc]
      exact congrArg (· ++ more) hTold
    · rw [← List.append_assoc]
      exact congrArg (· ++ more) hTold'

theorem determined_pure (a : α) : Determined (pure a : Act σ α) := fun _ _ hAlike =>
  ⟨rfl, hAlike, [], (List.append_nil _).symm, (List.append_nil _).symm⟩

theorem determined_throw (s : Stop) : Determined (throw s : Act σ α) := fun _ _ hAlike =>
  ⟨rfl, hAlike, [], (List.append_nil _).symm, (List.append_nil _).symm⟩

theorem determined_ofExcept (r : Except Stop α) : Determined (ofExcept r : Act σ α) := by
  cases r with
  | error s => exact determined_throw s
  | ok a => exact determined_pure a

theorem determined_ofFault (r : Except Fault α) : Determined (ofFault r : Act σ α) := by
  cases r with
  | error f => exact determined_throw (.fault f)
  | ok a => exact determined_pure a

theorem determined_notice (n : Notice) : Determined (notice n : Act σ Unit) := fun _ _ hAlike =>
  ⟨rfl, ⟨hAlike.network, hAlike.handedOut, hAlike.isOpen, hAlike.isOpen'⟩, [n], rfl, rfl⟩

theorem determined_count (f : Tally → Tally) : Determined (count f : Act σ Unit) :=
  fun _ _ hAlike =>
    ⟨rfl, ⟨hAlike.network, hAlike.handedOut, hAlike.isOpen, hAlike.isOpen'⟩, [],
      (List.append_nil _).symm, (List.append_nil _).symm⟩

/-- To hand out nonces up to a given one depends on nothing. -/
theorem determined_handOut (last : Word64) :
    Determined (modify fun w => { w with handedOut := last } : Act σ Unit) := fun _ _ hAlike =>
  ⟨rfl, ⟨hAlike.network, rfl, hAlike.isOpen, hAlike.isOpen'⟩, [], (List.append_nil _).symm,
    (List.append_nil _).symm⟩

theorem determined_ask (call : Call) (f : σ → Reply α × σ) : Determined (ask call f) := by
  intro w v hAlike
  rw [ask_apply call f hAlike.isOpen, ask_apply call f hAlike.isOpen', hAlike.network]
  exact ⟨rfl, ⟨rfl, hAlike.handedOut, hAlike.isOpen, hAlike.isOpen'⟩, [],
    (List.append_nil _).symm, (List.append_nil _).symm⟩

theorem determined_askFees (network : Network σ) (probe : CallObject) :
    Determined (askFees network probe) := by
  intro w v hAlike
  rw [askFees_apply network probe hAlike.isOpen, askFees_apply network probe hAlike.isOpen',
    hAlike.network]
  exact ⟨rfl, ⟨rfl, hAlike.handedOut, hAlike.isOpen, hAlike.isOpen'⟩, [],
    (List.append_nil _).symm, (List.append_nil _).symm⟩

/-- An action that looks at the nonces that were handed out, and at nothing else. -/
theorem determined_get {f : Word64 → Act σ α} (hf : ∀ last, Determined (f last)) :
    Determined ((get : Act σ (World σ)) >>= fun w => f w.handedOut) := by
  intro w v hAlike
  have hAll := hf w.handedOut w v hAlike
  have hLast : (f w.handedOut v) = (get >>= fun w => f w.handedOut : Act σ α) v := by
    rw [← hAlike.handedOut]
    rfl
  rw [hLast] at hAll
  exact hAll

end Act

/-! ## A preparation -/

theorem Pricing.determined_ofAnswers
    (answers : Answer Word256 × Answer (Option Word256) × Answer Word256) :
    Act.Determined (ofAnswers answers : Act σ Pricing) := by
  have hGas : Act.Determined (gasLimitOf answers.1 : Act σ Word256) := by
    cases answers.1 with
    | value estimate => exact Act.determined_ofFault _
    | failure f =>
      refine Act.determined_bind (Act.determined_notice _) fun _ => ?_
      exact Act.determined_bind (Act.determined_count _) fun _ => Act.determined_pure _
    | fault f => exact Act.determined_throw _
  refine Act.determined_bind hGas fun gasLimit => ?_
  refine Act.determined_bind (Act.determined_ofExcept _) fun baseFee => ?_
  refine Act.determined_bind (Act.determined_ofExcept _) fun priorityFee => ?_
  refine Act.determined_bind (Act.determined_ofFault _) fun maxFee => ?_
  exact Act.determined_bind (Act.determined_notice _) fun _ => Act.determined_pure _

theorem NonceRange.determined_reserve (network : Network σ) (account : Address) (size : Word64) :
    Act.Determined (reserve network account size) := by
  by_cases hSize : size = 0
  · subst hSize
    exact Act.determined_throw _
  rw [reserve_of_ne_zero network account hSize]
  have hHandOut (pending : Word64) : Act.Determined (handOut pending size : Act σ NonceRange) := by
    refine Act.determined_bind (Act.determined_ofFault _) fun stop => ?_
    refine Act.determined_bind (Act.determined_handOut stop) fun _ => ?_
    exact Act.determined_bind (Act.determined_notice _) fun _ => Act.determined_pure _
  refine Act.determined_bind (Act.determined_ask _ _) fun pending => ?_
  refine Act.determined_get (f := fun last => if pending < last then
    (do Act.notice (.pendingLags pending last); handOut pending size)
    else handOut pending size) fun last => ?_
  split
  · exact Act.determined_bind (Act.determined_notice _) fun _ => hHandOut pending
  · exact hHandOut pending

namespace Batch

variable {network : Network σ} {account : Account} {terms : TransferTerms} {size : Word64}

theorem determined_prepare (network : Network σ) (account : Account) (terms : TransferTerms)
    (size : Word64) : Act.Determined (prepare network account terms size) := by
  rw [prepare_eq, Pricing.obtain_eq]
  refine Act.determined_bind (Act.determined_bind (Act.determined_askFees network _)
    Pricing.determined_ofAnswers) fun pricing => ?_
  refine Act.determined_bind (NonceRange.determined_reserve network _ size) fun nonces => ?_
  refine Act.determined_bind (Act.determined_ofExcept _) fun transfers => ?_
  exact Act.determined_bind (Act.determined_notice _) fun _ => Act.determined_pure _

theorem handedOut_obtain (network : Network σ) (sender recipient : Address) (amount : Word256)
    {w : World σ} (hOpen : w.cutOff = none) :
    (Pricing.obtain network sender recipient amount w).2.handedOut = w.handedOut :=
  (Pricing.view_obtain World.handedOut (fun _ _ => rfl) (fun _ _ _ => rfl)
    (fun _ => rfl) network sender recipient amount w).trans <|
    congrArg (fun r => r.2.handedOut) (Act.askFees_apply network _ hOpen)

/-- A preparation that fails hands out no nonces. -/
theorem handedOut_of_failed {w w' : World σ} {f : Failure} (hOpen : w.cutOff = none)
    (h : (prepare network account terms size).Stops w (.failure f) w') :
    w'.handedOut = w.handedOut := by
  have hPriced := handedOut_obtain network account.address terms.recipient terms.amount hOpen
  rcases Act.stops_bind.mp h with hObtain | ⟨pricing, v, hObtain, h⟩
  · rw [show _ = _ from hObtain] at hPriced
    exact hPriced
  rw [show _ = _ from hObtain] at hPriced
  rcases Act.stops_bind.mp h with hReserve | ⟨range, u, _, h⟩
  · have hReserves := NonceRange.reserves_reserve network account.address size v
    rw [show _ = _ from hReserve] at hReserves
    cases hReserves with
    | unread hBooks => exact (congrArg Prod.fst hBooks).trans hPriced
  rcases Act.stops_bind.mp h with hSign | ⟨transfers, t, _, h⟩
  · obtain ⟨hError, _⟩ := Act.stops_ofExcept.mp hSign
    obtain ⟨nonce, _, hNonce⟩ := exists_of_mapM_eq_error hError
    obtain ⟨fault, hFault⟩ := fault_of_sign_eq_error hNonce
    cases hFault
  rcases Act.stops_bind.mp h with hNotice | ⟨_, _, _, hPure⟩
  · exact absurd hNotice Act.not_stops_notice
  · exact absurd hPure Act.not_stops_pure

theorem pendingCount_not_mem_feeCalls (probe : CallObject) (sender : Address) :
    .pendingCount sender ∉ feeCalls probe := by
  simp [feeCalls]

/-- A preparation that stops has submitted nothing. It has read the pending count at most once, and
only for a batch of some size whose price is known. -/
theorem calls_of_stops {w w' : World σ} {s : Stop} (hOpen : w.cutOff = none)
    (h : (prepare network account terms size).Stops w s w') :
    ∃ made, w.Grows made w' ∧ made.map Prod.snd <+: preparationCalls account terms ∧
      (.pendingCount account.address ∈ made.map Prod.snd → size ≠ 0 ∧ ∃ pricing v,
        (Pricing.obtain network account.address terms.recipient terms.amount).Returns w
          pricing v) := by
  have hObtain := Pricing.makes_obtain network account.address terms.recipient terms.amount hOpen
  rcases Act.stops_bind.mp h with hStops | ⟨pricing, v, hPrice, hStops⟩
  · obtain ⟨made, hGrows, hCalls⟩ := hObtain.first hStops
    refine ⟨made, hGrows, hCalls.trans (List.prefix_append _ _), fun hRead => ?_⟩
    exact absurd (hCalls.subset hRead) (pendingCount_not_mem_feeCalls _ _)
  · obtain ⟨made, hGrows, hCalls⟩ := hObtain.all hPrice
    by_cases hSize : size = 0
    · -- nothing is read for a batch of no transfers
      subst hSize
      have hSame : priced network account terms 0 pricing v =
          (.error (.failure (.internal .emptyRange)), v) := rfl
      obtain rfl : v = w' := congrArg Prod.snd (hSame.symm.trans hStops)
      refine ⟨made, hGrows, hCalls ▸ List.prefix_append _ _, fun hRead => ?_⟩
      rw [hCalls] at hRead
      exact absurd hRead (pendingCount_not_mem_feeCalls _ _)
    · obtain ⟨more, hMore, hRest⟩ := (makes_priced network account terms size pricing
        (hGrows.isOpen hOpen)).first hStops
      refine ⟨made ++ more, hGrows.trans hMore, ?_, fun _ => ⟨hSize, pricing, v, hPrice⟩⟩
      rw [List.map_append, hCalls]
      exact (List.prefix_append_right_inj _).mpr hRest

end Batch

/-! ## Preparations in a row -/

/-- One call for a batch. -/
structure Build (σ : Type) where
  size : Word64
  begun : World σ
  result : Except Stop Batch
  ended : World σ

namespace Build

/-- What the call is made for: how many transfers, and the endpoints as they are then. -/
def call (b : Build σ) : Word64 × σ := (b.size, b.begun.network)

/-- The call fails. -/
def failed (b : Build σ) : Bool :=
  match b.result with
  | .error (.failure _) => true
  | _ => false

/-- The warnings about the pending count that come with the call. -/
def warnings (b : Build σ) : List Notice := b.begun.lagWarningsUntil b.ended

/-- What there is to see of the call. -/
def trace (b : Build σ) : Word64 × Except Stop Batch × List Notice := (b.size, b.result, b.warnings)

/-- The call for a batch that is begun in a world. -/
def of (network : Network σ) (account : Account) (terms : TransferTerms) (size : Word64)
    (w : World σ) : Build σ where
  size := size
  begun := w
  result := (Batch.prepare network account terms size w).1
  ended := (Batch.prepare network account terms size w).2

variable {network : Network σ} {account : Account} {terms : TransferTerms} {size : Word64}
  {w v : World σ}

theorem isOpen_ended (hOpen : w.cutOff = none) :
    (of network account terms size w).ended.cutOff = none :=
  (Batch.makes_prepare network account terms size hOpen).isOpen hOpen

theorem stops_of_failed (h : (of network account terms size w).failed = true) :
    ∃ f, (Batch.prepare network account terms size).Stops w (.failure f)
      (of network account terms size w).ended := by
  rcases hPrepare : Batch.prepare network account terms size w with ⟨result, w'⟩
  unfold failed of at h
  rw [hPrepare] at h
  unfold of
  rw [hPrepare]
  rcases result with (f | fault | _) | batch
  · exact ⟨f, hPrepare⟩
  all_goals cases h

/-- In worlds that are alike, there is the same to see of a call. -/
theorem trace_of_alike (network : Network σ) (account : Account) (terms : TransferTerms)
    (size : Word64) (h : w.Alike v) :
    (of network account terms size v).trace = (of network account terms size w).trace ∧
      (of network account terms size w).ended.Alike (of network account terms size v).ended := by
  obtain ⟨hSame, hAfter, told, hTold, hTold'⟩ :=
    Batch.determined_prepare network account terms size w v h
  have hWarnings : (of network account terms size v).warnings =
      (of network account terms size w).warnings :=
    (World.lagWarningsUntil_of_eq (World.lagWarnings_of_notices hTold')).trans
      (World.lagWarningsUntil_of_eq (World.lagWarnings_of_notices hTold)).symm
  refine ⟨?_, hAfter⟩
  unfold trace
  rw [hWarnings]
  exact congrArg (fun result => (size, result, _)) hSame

end Build

namespace Batch

variable {network : Network σ} {account : Account} {terms : TransferTerms}

/-- The calls for batches of the given sizes, one after the other. The endpoints may have changed in
any way before each. -/
def builds (network : Network σ) (account : Account) (terms : TransferTerms) :
    World σ → List (Word64 × σ) → List (Build σ)
  | _, [] => []
  | w, (size, s) :: rest =>
    let build := Build.of network account terms size { w with network := s }
    build :: builds network account terms build.ended rest

theorem builds_cons {size : Word64} {s : σ} {calls : List (Word64 × σ)} {w : World σ} :
    builds network account terms w ((size, s) :: calls) =
      .of network account terms size { w with network := s } :: builds network account terms
        (Build.of network account terms size { w with network := s }).ended calls := rfl

theorem map_call_builds (calls : List (Word64 × σ)) (w : World σ) :
    (builds network account terms w calls).map Build.call = calls := by
  induction calls generalizing w with
  | nil => rfl
  | cons call calls ih => exact congrArg (call :: ·) (ih _)

theorem exists_of_mem_builds {calls : List (Word64 × σ)} {w : World σ} {b : Build σ}
    (hOpen : w.cutOff = none) (h : b ∈ builds network account terms w calls) :
    ∃ v : World σ, v.cutOff = none ∧ b = .of network account terms b.size v := by
  induction calls generalizing w with
  | nil => cases h
  | cons call calls ih =>
    rcases List.mem_cons.mp h with rfl | hLater
    · exact ⟨{ w with network := call.2 }, hOpen, rfl⟩
    · exact ih (Build.isOpen_ended (w := { w with network := call.2 }) hOpen) hLater

/-- The calls that do not fail come to the same when the others are left out. -/
theorem map_trace_builds_kept (calls : List (Word64 × σ)) {w v : World σ} (hOpen : w.cutOff = none)
    (hOpen' : v.cutOff = none) (hLast : v.handedOut = w.handedOut) :
    (builds network account terms v
        (((builds network account terms w calls).filter fun b => !b.failed).map
          Build.call)).map Build.trace =
      ((builds network account terms w calls).filter fun b => !b.failed).map Build.trace := by
  induction calls generalizing w v with
  | nil => rfl
  | cons call calls ih =>
    obtain ⟨size, s⟩ := call
    have hBegun : ({ w with network := s } : World σ).cutOff = none := hOpen
    rw [builds_cons]
    cases hFailed : (Build.of network account terms size { w with network := s }).failed with
    | true =>
      obtain ⟨f, hStops⟩ := Build.stops_of_failed hFailed
      rw [List.filter_cons_of_neg (by simp [hFailed])]
      exact ih (Build.isOpen_ended hBegun) hOpen'
        (hLast.trans (handedOut_of_failed hBegun hStops).symm)
    | false =>
      have hAlike : World.Alike { w with network := s } { v with network := s } :=
        ⟨rfl, hLast, hOpen, hOpen'⟩
      obtain ⟨hTrace, hAfter⟩ := Build.trace_of_alike network account terms size hAlike
      rw [List.filter_cons_of_pos (by simp [hFailed]), List.map_cons, List.map_cons, ← hTrace]
      exact congrArg (_ :: ·) (ih hAfter.isOpen hAfter.isOpen' hAfter.handedOut)

/-- Calls for batches that fail leave no trace: without them, all other calls come to the same
batches with the same warnings. A call that fails has handed out no nonces and submitted nothing. It
has read the pending count at most once, and only for a batch of some size whose price is known. -/
theorem failed_builds_leave_no_trace (network : Network σ) (account : Account)
    (terms : TransferTerms) (calls : List (Word64 × σ)) {w : World σ} (hOpen : w.cutOff = none) :
    (builds network account terms w calls).map Build.call = calls ∧
      (builds network account terms w
          (((builds network account terms w calls).filter fun b => !b.failed).map
            Build.call)).map Build.trace =
        ((builds network account terms w calls).filter fun b => !b.failed).map Build.trace ∧
      ∀ b ∈ builds network account terms w calls, b.failed = true →
        b.ended.handedOut = b.begun.handedOut ∧ ∃ made, b.begun.Grows made b.ended ∧
          (made.map Prod.snd).countP Call.isSubmission = 0 ∧
          (made.map Prod.snd).count (.pendingCount account.address) ≤ 1 ∧
          (.pendingCount account.address ∈ made.map Prod.snd → b.size ≠ 0 ∧ ∃ pricing v,
            (Pricing.obtain network account.address terms.recipient terms.amount).Returns b.begun
              pricing v) := by
  refine ⟨map_call_builds calls w, map_trace_builds_kept calls hOpen hOpen rfl, ?_⟩
  intro b hMem hFailed
  obtain ⟨v, hv, hBuild⟩ := exists_of_mem_builds hOpen hMem
  rw [hBuild] at hFailed
  obtain ⟨f, hStops⟩ := Build.stops_of_failed hFailed
  obtain ⟨made, hGrows, hCalls, hRead⟩ := calls_of_stops hv hStops
  rw [hBuild]
  refine ⟨handedOut_of_failed hv hStops, made, hGrows, countP_isSubmission_of_prefix hCalls, ?_,
    hRead⟩
  exact List.nodup_iff_count_le_one.mp (hCalls.sublist.nodup nodup_preparationCalls) _

/-- A call for no transfers at all fails. What was handed out before it is still remembered, and the
call after it is the same as without it. -/
theorem empty_build_leaves_no_trace :
    ({ network := [], handedOut := 7 } : World (List Word64)).cutOff = none ∧
      ∃ b rest, builds Reservation.countsInTurn Plan.sevenByThree.account
          (Plan.sevenByThree.terms 1) { network := [], handedOut := 7 } [(0, []), (2, [3])] =
          b :: rest ∧
        b.failed = true ∧ b.ended.handedOut = 7 ∧
        (builds Reservation.countsInTurn Plan.sevenByThree.account (Plan.sevenByThree.terms 1)
            { network := [], handedOut := 7 }
            ((rest.filter fun b => !b.failed).map Build.call)).map Build.trace =
          (rest.filter fun b => !b.failed).map Build.trace := by
  obtain ⟨b, rest, hAll, hFailed, hBegun⟩ : ∃ b rest, builds Reservation.countsInTurn
      Plan.sevenByThree.account (Plan.sevenByThree.terms 1) { network := [], handedOut := 7 }
      [(0, []), (2, [3])] = b :: rest ∧ b.failed = true ∧ b.begun.handedOut = 7 :=
    ⟨_, _, builds_cons, rfl, rfl⟩
  obtain ⟨_, hKept, hTraceless⟩ := failed_builds_leave_no_trace Reservation.countsInTurn
    Plan.sevenByThree.account (Plan.sevenByThree.terms 1) [(0, []), (2, [3])]
    (show ({ network := [], handedOut := 7 } : World (List Word64)).cutOff = none from rfl)
  rw [hAll] at hKept hTraceless
  rw [List.filter_cons_of_neg (by simp [hFailed])] at hKept
  have hSame := (hTraceless b List.mem_cons_self hFailed).1
  exact ⟨rfl, b, rest, hAll, hFailed, hSame.trans hBegun, hKept⟩

end Batch

end TxLoad

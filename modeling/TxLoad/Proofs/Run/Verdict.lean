import TxLoad.Proofs.Run.Calls
import TxLoad.Run.Verdict

/-! # What a check of a mined transaction comes to

A check makes two lookups, and a replay only if the receipt tells of a failure in a block. What it
comes to is read off the answers: `Passes` is a failure that is handed on, `Lacks` says that
something is missing, `Reverts` that the transaction has failed, with the reason that is known, and
`Succeeds` that it has not. One of these holds of any answers, and it fixes the end of the check.
-/

namespace TxLoad

variable {σ α β : Type}

namespace Act

/-- In this world the action makes these calls and no others, and it comes to this. -/
structure Comes (x : Act σ α) (w : World σ) (calls : List Call) (result : Except Stop α) :
    Prop where
  result_eq : (x w).1 = result
  made : ∃ made, w.Grows made (x w).2 ∧ made.map Prod.snd = calls

variable {x : Act σ α} {f : α → Act σ β} {w v : World σ} {a : α} {s : Stop} {calls more : List Call}
  {result : Except Stop β}

theorem Makes.comes (h : x.Makes w calls) (hx : x.Returns w a v) : x.Comes w calls (.ok a) where
  result_eq := congrArg Prod.fst hx
  made := by
    rw [show x w = (.ok a, v) from hx]
    exact h.all hx

theorem comes_pure (a : α) (w : World σ) : (pure a : Act σ α).Comes w [] (.ok a) :=
  (makes_pure a w).comes (returns_pure.mpr ⟨rfl, rfl⟩)

theorem comes_notice (n : Notice) (w : World σ) : (notice n).Comes w [] (.ok ()) :=
  (makes_notice n w).comes (returns_notice.mpr rfl)

theorem comes_logCalls (calls : List Call) (w : World σ) :
    (logCalls calls).Comes w calls (.ok ()) :=
  (makes_logCalls calls w).comes (returns_logCalls.mpr rfl)

theorem comes_step (f : σ → α × σ) (w : World σ) : (step f).Comes w [] (.ok (f w.network).1) :=
  (makes_step f w).comes (returns_step.mpr ⟨rfl, rfl⟩)

theorem comes_sleep (d : Duration) (hOpen : w.cutOff = none) : (sleep d).Comes w [] (.ok ()) :=
  (makes_sleep d hOpen).comes ((returns_sleep hOpen).mpr rfl)

theorem comes_throw (s : Stop) (w : World σ) : (throw s : Act σ α).Comes w [] (.error s) where
  result_eq := rfl
  made := ⟨[], .refl w, rfl⟩

/-- An action that returns is followed by the next one. -/
theorem Comes.bind (h : x.Comes w calls (.ok a)) (hRest : (f a).Comes (x w).2 more result) :
    (x >>= f).Comes w (calls ++ more) result := by
  obtain ⟨hOk, made, hGrows, rfl⟩ := h
  obtain ⟨hResult, later, hLater, rfl⟩ := hRest
  have hx : x w = (.ok a, (x w).2) := Prod.ext hOk rfl
  have hBind : (x >>= f) w = f a (x w).2 := by rw [bind_apply, hx]
  exact ⟨hBind ▸ hResult, made ++ later, hBind ▸ hGrows.trans hLater, List.map_append⟩

/-- Nothing follows an action that stops. -/
theorem Comes.bind_error (h : x.Comes w calls (.error s)) :
    (x >>= f).Comes w calls (.error s) := by
  obtain ⟨hError, made, hGrows, rfl⟩ := h
  have hx : x w = (.error s, (x w).2) := Prod.ext hError rfl
  have hBind : (x >>= f) w = (.error s, (x w).2) := by rw [bind_apply, hx]
  exact ⟨hBind ▸ rfl, made, hBind ▸ hGrows, rfl⟩

theorem Comes.isOpen {r : Except Stop α} (h : x.Comes w calls r) (hOpen : w.cutOff = none) :
    (x w).2.cutOff = none := by
  obtain ⟨_, hGrows, _⟩ := h.made
  exact hGrows.isOpen hOpen

theorem comes_ask (call : Call) (f : σ → Reply α × σ) (hOpen : w.cutOff = none) :
    (ask call f).Comes w [call] (f w.network).1.answer.toExcept := by
  have hAsk := ask_apply call f hOpen
  refine ⟨congrArg Prod.fst hAsk, [(w.now, call)], ?_, rfl⟩
  rw [hAsk]
  show w.Grows ([call].map fun call => (w.now, call)) _
  exact .of_logged rfl rfl (Nat.le_add_right _ _)

end Act

namespace Verdict

/-! ## The answers to a check -/

section Answers

variable (archive : Archive σ) (hash : Hash) (s : σ)

/-- Both lookups are answered with what they look for, and the endpoints are left in a state. -/
inductive Finds : KnownTransaction → Receipt → σ → Prop
  | mined {t : KnownTransaction} {r : Receipt}
      (hKnown : (archive.transaction hash s).1.answer = .value (some t))
      (hReceipt : (archive.receipt hash (archive.transaction hash s).2).1.answer =
        .value (some r)) :
      Finds t r (archive.receipt hash (archive.transaction hash s).2).2

/-- A transaction that has failed in a block is made again as a call on the state before that block.
The first block stands for the one before it. -/
inductive Replays : CallObject → Word64 → Answer Bytes → Prop
  | failed {t : KnownTransaction} {r : Receipt} {u : σ} {mined earlier : Word64} {call : CallObject}
      (hFinds : Finds archive hash s t r u) (hStatus : r.status = some 0)
      (hBlock : r.block = some mined) (hEarlier : earlier.toNat = mined.toNat - 1)
      (hCall : call =
        { dynamicFee := false
          gasPrice := t.gasPrice
          request :=
            { sender := some t.sender
              recipient := t.recipient
              value := some t.value
              gasLimit := some t.gas
              data := some t.input } }) :
      Replays call earlier (archive.callAt call earlier u).1.answer

/-- The calls of a check, according to what each of them is answered. -/
inductive Consults : List Call → Prop
  | transaction (hKnown : ∀ t, (archive.transaction hash s).1.answer ≠ .value (some t)) :
      Consults [.transaction hash]
  | receipt {t : KnownTransaction}
      (hKnown : (archive.transaction hash s).1.answer = .value (some t))
      (hNever : ∀ t r u, Finds archive hash s t r u → r.status = some 0 → r.block = none) :
      Consults [.transaction hash, .receipt hash]
  | replay {call : CallObject} {block : Word64} {answer : Answer Bytes}
      (hReplays : Replays archive hash s call block answer) :
      Consults [.transaction hash, .receipt hash, .callAt call block]

/-- A failure that the check hands on: one of a lookup, or one of the replay that is not the failure
of a call. -/
inductive Passes : Stop → Prop
  | transaction {stop : Stop}
      (hError : (archive.transaction hash s).1.answer.toExcept = .error stop) : Passes stop
  | receipt {t : KnownTransaction} {stop : Stop}
      (hKnown : (archive.transaction hash s).1.answer = .value (some t))
      (hError : (archive.receipt hash (archive.transaction hash s).2).1.answer.toExcept =
        .error stop) : Passes stop
  | replay {call : CallObject} {block : Word64} {answer : Answer Bytes} {stop : Stop}
      (hReplays : Replays archive hash s call block answer)
      (hError : answer.toExcept = .error stop) (hOther : ∀ f, stop ≠ .failure (.call f)) :
      Passes stop

/-- Something that must be there is missing: the transaction, its receipt, or the block of a receipt
that tells of a failure. -/
inductive Lacks : Prop
  | transaction (hUnknown : (archive.transaction hash s).1.answer = .value none)
  | receipt {t : KnownTransaction}
      (hKnown : (archive.transaction hash s).1.answer = .value (some t))
      (hNone : (archive.receipt hash (archive.transaction hash s).2).1.answer = .value none)
  | block {t : KnownTransaction} {r : Receipt} {u : σ} (hFinds : Finds archive hash s t r u)
      (hStatus : r.status = some 0) (hNone : r.block = none)

/-- The transaction has failed. The reason is what the replay says, if it fails as well. -/
inductive Reverts : Option String → Prop
  | unexplained {call : CallObject} {block : Word64} {data : Bytes}
      (hReplays : Replays archive hash s call block (.value data)) : Reverts none
  | explained {call : CallObject} {block : Word64} {method message : String}
      (hReplays : Replays archive hash s call block (.failure (.call ⟨method, message⟩))) :
      Reverts (some message)

/-- The receipt is there and does not tell of a failure. -/
def Succeeds : Prop := ∃ t r u, Finds archive hash s t r u ∧ r.status ≠ some 0

end Answers

variable {archive : Archive σ} {hash : Hash} {s u : σ} {w : World σ}

theorem lookup_cases (answer : Answer (Option α)) :
    (∃ stop, answer.toExcept = .error stop) ∨ answer = .value none ∨
      ∃ a, answer = .value (some a) := by
  rcases answer with (_ | a) | f | f
  · exact .inr (.inl rfl)
  · exact .inr (.inr ⟨a, rfl⟩)
  · exact .inl ⟨.failure f, rfl⟩
  · exact .inl ⟨.fault f, rfl⟩

theorem replay_cases (answer : Answer Bytes) :
    (∃ stop, answer.toExcept = .error stop ∧ ∀ f, stop ≠ .failure (.call f)) ∨
      (∃ data, answer = .value data) ∨
      ∃ method message, answer = .failure (.call ⟨method, message⟩) := by
  rcases answer with data | f | f
  · exact .inr (.inl ⟨data, rfl⟩)
  · by_cases hCall : ∃ failure, f = .call failure
    · obtain ⟨⟨method, message⟩, rfl⟩ := hCall
      exact .inr (.inr ⟨method, message, rfl⟩)
    · refine .inl ⟨.failure f, rfl, fun failure hFailure => hCall ⟨failure, ?_⟩⟩
      cases hFailure
      rfl
  · exact .inl ⟨.fault f, rfl, nofun⟩

/-- What was found and has failed in a block is replayed. -/
theorem Finds.exists_replays {t : KnownTransaction} {r : Receipt} {mined : Word64}
    (h : Finds archive hash s t r u) (hStatus : r.status = some 0) (hBlock : r.block = some mined) :
    ∃ call block answer, Replays archive hash s call block answer := by
  have hEarlier : (BitVec.ofNat 64 (mined.toNat - 1)).toNat = mined.toNat - 1 := by
    rw [BitVec.toNat_ofNat]
    exact Nat.mod_eq_of_lt (Nat.lt_of_le_of_lt (Nat.sub_le _ _) mined.isLt)
  exact ⟨_, _, _, .failed h hStatus hBlock hEarlier rfl⟩

/-- Every check finds one of these. -/
theorem exists_passes_or (archive : Archive σ) (hash : Hash) (s : σ) :
    (∃ stop, Passes archive hash s stop) ∨ Lacks archive hash s ∨
      (∃ reason, Reverts archive hash s reason) ∨ Succeeds archive hash s := by
  rcases lookup_cases (archive.transaction hash s).1.answer with
    ⟨stop, hError⟩ | hNone | ⟨t, hKnown⟩
  · exact .inl ⟨stop, .transaction hError⟩
  · exact .inr (.inl (.transaction hNone))
  rcases lookup_cases (archive.receipt hash (archive.transaction hash s).2).1.answer with
    ⟨stop, hError⟩ | hNone | ⟨r, hReceipt⟩
  · exact .inl ⟨stop, .receipt hKnown hError⟩
  · exact .inr (.inl (.receipt hKnown hNone))
  have hFinds : Finds archive hash s t r _ := .mined hKnown hReceipt
  by_cases hStatus : r.status = some 0
  · cases hBlock : r.block with
    | none => exact .inr (.inl (.block hFinds hStatus hBlock))
    | some mined =>
      obtain ⟨_, _, answer, hReplays⟩ := hFinds.exists_replays hStatus hBlock
      rcases replay_cases answer with ⟨stop, hError, hOther⟩ | ⟨data, rfl⟩ | ⟨method, message, rfl⟩
      · exact .inl ⟨stop, .replay hReplays hError hOther⟩
      · exact .inr (.inr (.inl ⟨none, .unexplained hReplays⟩))
      · exact .inr (.inr (.inl ⟨some message, .explained hReplays⟩))
  · exact .inr (.inr (.inr ⟨t, r, _, hFinds, hStatus⟩))

/-! ## The stages of a check -/

/-- What a check does once the lookups have found the transaction and its receipt. -/
def judge (archive : Archive σ) (hash : Hash) (t : KnownTransaction) (r : Receipt) :
    Act σ Verdict := do
  if r.status ≠ some 0 then return .succeeded
  let block ← found hash r.block
  let replayBlock := BitVec.ofNat 64 (block.toNat - 1)
  Act.notice (.replaying hash block replayBlock)
  let call := replay t
  Act.logCalls [.callAt call replayBlock]
  let reply ← Act.step (archive.callAt call replayBlock)
  Act.sleep reply.delay
  ofReplay hash reply.answer

theorem obtain_eq (archive : Archive σ) (hash : Hash) : obtain archive hash =
    (Act.ask (.transaction hash) (archive.transaction hash) >>= fun known =>
      found hash known >>= fun t =>
        Act.ask (.receipt hash) (archive.receipt hash) >>= fun receipt =>
          found hash receipt >>= judge archive hash t) := rfl

section LookUp

variable {call : Call} {f : σ → Reply (Option α) × σ} {rest : α → Act σ β}

/-- A lookup that is not answered ends the check. -/
theorem comes_lookUp_of_error {stop : Stop} (hOpen : w.cutOff = none)
    (hError : (f w.network).1.answer.toExcept = .error stop) :
    (Act.ask call f >>= fun a => found hash a >>= rest).Comes w [call] (.error stop) :=
  Act.Comes.bind_error (hError ▸ Act.comes_ask call f hOpen)

/-- So does a lookup that does not find anything. -/
theorem comes_lookUp_of_none (hOpen : w.cutOff = none)
    (hNone : (f w.network).1.answer = .value none) :
    (Act.ask call f >>= fun a => found hash a >>= rest).Comes w [call]
      (.error (.failure (.notFound hash.text))) := by
  have hAsk := Act.comes_ask call f hOpen
  rw [hNone] at hAsk
  exact hAsk.bind (Act.comes_throw _ _).bind_error

/-- The check goes on after a lookup that finds something. -/
theorem comes_lookUp_of_some {a : α} {more : List Call} {result : Except Stop β}
    (hOpen : w.cutOff = none) (hFound : (f w.network).1.answer = .value (some a))
    (hRest : ∀ v : World σ, v.cutOff = none → v.network = (f w.network).2 →
      (rest a).Comes v more result) :
    (Act.ask call f >>= fun a => found hash a >>= rest).Comes w (call :: more) result := by
  have hAsk := Act.comes_ask call f hOpen
  rw [hFound] at hAsk
  exact hAsk.bind ((Act.comes_pure a _).bind
    (hRest _ (hAsk.isOpen hOpen) (Act.network_ask call f w)))

end LookUp

theorem comes_obtain_of_finds {t : KnownTransaction} {r : Receipt} {more : List Call}
    {result : Except Stop Verdict} (hOpen : w.cutOff = none)
    (hFinds : Finds archive hash w.network t r u)
    (hRest : ∀ v : World σ, v.cutOff = none → v.network = u →
      (judge archive hash t r).Comes v more result) :
    (obtain archive hash).Comes w (.transaction hash :: .receipt hash :: more) result := by
  obtain ⟨hKnown, hReceipt⟩ := hFinds
  rw [obtain_eq]
  refine comes_lookUp_of_some hOpen hKnown fun v hv hNetwork => ?_
  rw [← hNetwork] at hReceipt hRest
  exact comes_lookUp_of_some hv hReceipt hRest

/-- A failed transaction is replayed once, and the check ends as the answer says. -/
theorem comes_judge {t : KnownTransaction} {r : Receipt} {mined block : Word64} {call : CallObject}
    {result : Except Stop Verdict} (hOpen : w.cutOff = none) (hStatus : r.status = some 0)
    (hBlock : r.block = some mined) (hCall : replay t = call)
    (hEarlier : BitVec.ofNat 64 (mined.toNat - 1) = block)
    (hRest : ∀ v : World σ,
      (ofReplay hash (archive.callAt call block w.network).1.answer).Comes v [] result) :
    (judge archive hash t r).Comes w [.callAt call block] result := by
  unfold judge
  rw [if_neg (not_not_intro hStatus), hBlock, hCall]
  refine (Act.comes_pure mined w).bind ?_
  dsimp only
  rw [hEarlier, ← List.append_nil [Call.callAt call block]]
  refine (Act.comes_notice _ w).bind ?_
  refine (Act.comes_logCalls _ _).bind ?_
  refine (Act.comes_step _ _).bind ?_
  refine (Act.comes_sleep _ ?_).bind (hRest _)
  exact hOpen

theorem comes_obtain_of_replays {call : CallObject} {block : Word64} {answer : Answer Bytes}
    {result : Except Stop Verdict} (hOpen : w.cutOff = none)
    (h : Replays archive hash w.network call block answer)
    (hRest : ∀ v : World σ, (ofReplay hash answer).Comes v [] result) :
    (obtain archive hash).Comes w [.transaction hash, .receipt hash, .callAt call block]
      result := by
  obtain ⟨hFinds, hStatus, hBlock, hEarlier, hCall⟩ := h
  refine comes_obtain_of_finds hOpen hFinds fun v hv hNetwork => ?_
  refine comes_judge hv hStatus hBlock hCall.symm ?_ (hNetwork ▸ hRest)
  rw [← hEarlier, BitVec.ofNat_toNat, BitVec.setWidth_eq]

/-- A failure of a replay that is not the failure of a call is handed on. -/
theorem comes_ofReplay_of_error {answer : Answer Bytes} {stop : Stop}
    (hError : answer.toExcept = .error stop) (hOther : ∀ f, stop ≠ .failure (.call f))
    (w : World σ) : (ofReplay hash answer).Comes w [] (.error stop) := by
  cases answer with
  | value data => cases hError
  | failure f =>
    cases hError
    unfold ofReplay
    split
    · rename_i hValue
      cases hValue
    · rename_i failure hFailure
      cases hFailure
      exact absurd rfl (hOther failure)
    · rename_i hFailure
      cases hFailure
      exact Act.comes_throw _ w
    · rename_i hFault
      cases hFault
  | fault f =>
    cases hError
    exact Act.comes_throw _ w

/-! ## How a check ends -/

/-- The calls that the answers ask for are made, and the check comes to this. -/
def Concludes (archive : Archive σ) (hash : Hash) (w : World σ) (result : Except Stop Verdict) :
    Prop :=
  ∃ calls, Consults archive hash w.network calls ∧ (obtain archive hash).Comes w calls result

theorem Finds.answers {t : KnownTransaction} {r : Receipt} (h : Finds archive hash s t r u) :
    (archive.transaction hash s).1.answer = .value (some t) ∧
      (archive.receipt hash (archive.transaction hash s).2).1.answer = .value (some r) := by
  obtain ⟨hKnown, hReceipt⟩ := h
  exact ⟨hKnown, hReceipt⟩

/-- What is found and has not failed, or in no block, is not replayed. -/
theorem Finds.consults {t : KnownTransaction} {r : Receipt} (h : Finds archive hash s t r u)
    (hNever : r.status = some 0 → r.block = none) :
    Consults archive hash s [.transaction hash, .receipt hash] := by
  refine .receipt h.answers.1 fun t' r' u' hFinds => ?_
  cases h.answers.2.symm.trans hFinds.answers.2
  exact hNever

/-- Where no receipt is found, the check makes the two lookups only. -/
theorem consults_of_no_receipt {t : KnownTransaction}
    (hKnown : (archive.transaction hash s).1.answer = .value (some t))
    (hNone : ∀ r, (archive.receipt hash (archive.transaction hash s).2).1.answer ≠
      .value (some r)) : Consults archive hash s [.transaction hash, .receipt hash] :=
  .receipt hKnown fun _ r _ hFinds => absurd hFinds.answers.2 (hNone r)

theorem ne_value_of_error {answer : Answer α} {a : α} {stop : Stop}
    (h : answer.toExcept = .error stop) : answer ≠ .value a := by
  rintro rfl
  cases h

theorem Passes.concludes {stop : Stop} (hOpen : w.cutOff = none)
    (h : Passes archive hash w.network stop) : Concludes archive hash w (.error stop) := by
  cases h with
  | transaction hError =>
    exact ⟨_, .transaction fun t => ne_value_of_error hError, comes_lookUp_of_error hOpen hError⟩
  | receipt hKnown hError =>
    refine ⟨_, consults_of_no_receipt hKnown fun r => ne_value_of_error hError, ?_⟩
    exact comes_lookUp_of_some hOpen hKnown fun v hv hNetwork =>
      comes_lookUp_of_error hv (hNetwork ▸ hError)
  | replay hReplays hError hOther =>
    exact ⟨_, .replay hReplays,
      comes_obtain_of_replays hOpen hReplays (comes_ofReplay_of_error hError hOther)⟩

theorem Lacks.concludes (hOpen : w.cutOff = none) (h : Lacks archive hash w.network) :
    Concludes archive hash w (.error (.failure (.notFound hash.text))) := by
  cases h with
  | transaction hUnknown =>
    refine ⟨_, .transaction fun t hKnown => ?_, comes_lookUp_of_none hOpen hUnknown⟩
    cases hUnknown.symm.trans hKnown
  | receipt hKnown hNone =>
    refine ⟨_, consults_of_no_receipt hKnown fun r hSome => ?_, ?_⟩
    · cases hNone.symm.trans hSome
    · exact comes_lookUp_of_some hOpen hKnown fun v hv hNetwork =>
        comes_lookUp_of_none hv (hNetwork ▸ hNone)
  | block hFinds hStatus hNone =>
    refine ⟨_, hFinds.consults fun _ => hNone,
      comes_obtain_of_finds hOpen hFinds fun v _ _ => ?_⟩
    unfold judge
    rw [if_neg (not_not_intro hStatus), hNone]
    exact (Act.comes_throw _ v).bind_error

theorem Reverts.concludes {reason : Option String} (hOpen : w.cutOff = none)
    (h : Reverts archive hash w.network reason) :
    Concludes archive hash w (.ok (.reverted reason)) := by
  cases h with
  | unexplained hReplays =>
    refine ⟨_, .replay hReplays, comes_obtain_of_replays hOpen hReplays fun v => ?_⟩
    exact (Act.comes_notice _ v).bind (Act.comes_pure _ _)
  | explained hReplays =>
    exact ⟨_, .replay hReplays, comes_obtain_of_replays hOpen hReplays (Act.comes_pure _)⟩

theorem Succeeds.concludes (hOpen : w.cutOff = none) (h : Succeeds archive hash w.network) :
    Concludes archive hash w (.ok .succeeded) := by
  obtain ⟨t, r, u, hFinds, hStatus⟩ := h
  refine ⟨_, hFinds.consults fun hFailed => absurd hFailed hStatus,
    comes_obtain_of_finds hOpen hFinds fun v _ _ => ?_⟩
  unfold judge
  rw [if_pos hStatus]
  exact Act.comes_pure _ v

theorem Concludes.unique {verdict result : Except Stop Verdict}
    (h : Concludes archive hash w verdict) (g : Concludes archive hash w result) :
    verdict = result := by
  obtain ⟨_, _, hComes⟩ := h
  obtain ⟨_, _, gComes⟩ := g
  exact hComes.result_eq.symm.trans gComes.result_eq

/-- What a check comes to shows what the answers to it were. -/
inductive Reflects (archive : Archive σ) (hash : Hash) (s : σ) : Except Stop Verdict → Prop
  | passes {stop : Stop} (hPasses : Passes archive hash s stop) :
      Reflects archive hash s (.error stop)
  | lacks (hLacks : Lacks archive hash s) :
      Reflects archive hash s (.error (.failure (.notFound hash.text)))
  | reverts {reason : Option String} (hReverts : Reverts archive hash s reason) :
      Reflects archive hash s (.ok (.reverted reason))
  | succeeds (hSucceeds : Succeeds archive hash s) : Reflects archive hash s (.ok .succeeded)

theorem exists_concludes (archive : Archive σ) (hash : Hash) (hOpen : w.cutOff = none) :
    ∃ verdict, Concludes archive hash w verdict ∧ Reflects archive hash w.network verdict := by
  rcases exists_passes_or archive hash w.network with
    ⟨stop, hPasses⟩ | hLacks | ⟨reason, hReverts⟩ | hSucceeds
  · exact ⟨_, hPasses.concludes hOpen, .passes hPasses⟩
  · exact ⟨_, hLacks.concludes hOpen, .lacks hLacks⟩
  · exact ⟨_, hReverts.concludes hOpen, .reverts hReverts⟩
  · exact ⟨_, hSucceeds.concludes hOpen, .succeeds hSucceeds⟩

/-- What the verdict of a check means where the transaction should have succeeded. -/
def ensured (hash : Hash) : Except Stop Verdict → Except Stop Unit
  | .ok .succeeded => .ok ()
  | .ok (.reverted reason) => .error (.failure (.reverted hash.text reason))
  | .error stop => .error stop

theorem comes_ensureSucceeded {calls : List Call} {result : Except Stop Verdict}
    (h : (obtain archive hash).Comes w calls result) :
    (ensureSucceeded archive hash).Comes w calls (ensured hash result) := by
  unfold ensureSucceeded
  rcases result with stop | (_ | reason)
  · exact h.bind_error
  · rw [← List.append_nil calls]
    exact h.bind (Act.comes_notice _ _)
  · rw [← List.append_nil calls]
    exact h.bind (Act.comes_throw _ _)

section Reflects

variable {verdict : Except Stop Verdict}

theorem Reflects.succeeds_of_ensured (h : Reflects archive hash s verdict)
    (hOk : ensured hash verdict = .ok ()) : Succeeds archive hash s := by
  cases h with
  | passes _ => cases hOk
  | lacks _ => cases hOk
  | reverts _ => cases hOk
  | succeeds hSucceeds => exact hSucceeds

theorem Reflects.lacks_of_ensured (h : Reflects archive hash s verdict)
    (hNone : ∀ stop, ¬Passes archive hash s stop)
    (hLost : ensured hash verdict = .error (.failure (.notFound hash.text))) :
    Lacks archive hash s := by
  cases h with
  | passes hPasses => exact absurd hPasses (hNone _)
  | lacks hLacks => exact hLacks
  | reverts _ => cases hLost
  | succeeds _ => cases hLost

theorem Reflects.reverts_of_ensured {reason : Option String} (h : Reflects archive hash s verdict)
    (hNone : ∀ stop, ¬Passes archive hash s stop)
    (hReverted : ensured hash verdict = .error (.failure (.reverted hash.text reason))) :
    Reverts archive hash s reason := by
  cases h with
  | passes hPasses => exact absurd hPasses (hNone _)
  | lacks _ => cases hReverted
  | reverts hReverts =>
    cases hReverted
    exact hReverts
  | succeeds _ => cases hReverted

end Reflects

/-- The verdict on a transaction follows its receipt. A check makes the calls that the answers ask
for; the transaction counts as succeeded exactly if its receipt is there and does not tell of a
failure; and of the failures on the way the first one is handed on. -/
theorem check_follows_receipt (archive : Archive σ) (hash : Hash) {w : World σ}
    (hOpen : w.cutOff = none) :
    ∃ calls verdict outcome, Consults archive hash w.network calls ∧
      (obtain archive hash).Comes w calls verdict ∧
      (ensureSucceeded archive hash).Comes w calls outcome ∧
      (outcome = .ok () ↔ Succeeds archive hash w.network) ∧
      (∀ stop, Passes archive hash w.network stop →
        verdict = .error stop ∧ outcome = .error stop) ∧
      ((∀ stop, ¬Passes archive hash w.network stop) →
        (verdict = .error (.failure (.notFound hash.text)) ↔ Lacks archive hash w.network) ∧
        (outcome = .error (.failure (.notFound hash.text)) ↔ Lacks archive hash w.network) ∧
        ∀ reason,
          (verdict = .ok (.reverted reason) ↔ Reverts archive hash w.network reason) ∧
          (outcome = .error (.failure (.reverted hash.text reason)) ↔
            Reverts archive hash w.network reason)) := by
  obtain ⟨verdict, hConcludes, hReflects⟩ := exists_concludes archive hash hOpen
  have hUnique {result : Except Stop Verdict} (h : Concludes archive hash w result) :
      verdict = result := hConcludes.unique h
  obtain ⟨calls, hConsults, hComes⟩ := hConcludes
  refine ⟨calls, verdict, ensured hash verdict, hConsults, hComes, comes_ensureSucceeded hComes,
    ⟨hReflects.succeeds_of_ensured, fun h => ?_⟩, fun stop h => ?_, fun hNone => ?_⟩
  · rw [hUnique (h.concludes hOpen), ensured]
  · rw [hUnique (h.concludes hOpen), ensured]
    exact ⟨rfl, rfl⟩
  have hLacks (h : Lacks archive hash w.network) := hUnique (h.concludes hOpen)
  have hReverts {reason : Option String} (h : Reverts archive hash w.network reason) :=
    hUnique (h.concludes hOpen)
  refine ⟨⟨fun h => ?_, hLacks⟩, ⟨hReflects.lacks_of_ensured hNone, fun h => ?_⟩, fun reason =>
    ⟨⟨fun h => ?_, hReverts⟩, ⟨hReflects.reverts_of_ensured hNone, fun h => ?_⟩⟩⟩
  · exact hReflects.lacks_of_ensured hNone (by rw [h, ensured])
  · rw [hLacks h, ensured]
  · exact hReflects.reverts_of_ensured hNone (by rw [h, ensured])
  · rw [hReverts h, ensured]

/-- An archive of one transaction, the creation of a contract that has failed in the first block. -/
def creation : Archive Unit where
  transaction _ s := (.now (.value (some ⟨⟨1⟩, none, 0, 21000, none, []⟩)), s)
  receipt _ s := (.now (.value (some ⟨some 0, some 0⟩)), s)
  callAt _ _ s := (.now (.failure (.call ⟨"eth_call", "out of gas"⟩)), s)

theorem creation_passes_nothing (stop : Stop) : ¬Passes creation ⟨0⟩ () stop := by
  rintro (hError | ⟨_, hError⟩ | ⟨⟨_, _, _, _, _⟩, hError, hOther⟩)
  · cases hError
  · cases hError
  · cases hError
    exact hOther _ rfl

/-- The failed creation is made again on the first block, and what the endpoint answers is the
reason. -/
theorem creation_reverted :
    Replays creation ⟨0⟩ () (replay ⟨⟨1⟩, none, 0, 21000, none, []⟩) 0
      (.failure (.call ⟨"eth_call", "out of gas"⟩)) ∧
    ∃ calls, (ensureSucceeded creation ⟨0⟩).Comes { network := () } calls
      (.error (.failure (.reverted (Hash.text ⟨0⟩) (some "out of gas")))) := by
  have hReplays : Replays creation ⟨0⟩ () (replay ⟨⟨1⟩, none, 0, 21000, none, []⟩) 0
      (.failure (.call ⟨"eth_call", "out of gas"⟩)) := .failed (.mined rfl rfl) rfl rfl rfl rfl
  obtain ⟨calls, _, _, _, _, hComes, _, _, hRest⟩ :=
    check_follows_receipt creation ⟨0⟩ (w := { network := () }) rfl
  obtain ⟨_, _, hReverted⟩ := hRest creation_passes_nothing
  rw [(hReverted _).2.mpr (.explained hReplays)] at hComes
  exact ⟨hReplays, calls, hComes⟩

end Verdict

end TxLoad

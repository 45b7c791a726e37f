import Mathlib.Data.List.Pairwise
import TxLoad.Proofs.Run.Reservation

/-! # What a history of calls for nonces hands out

`Reservation.Comes` says all that a call for nonces can come to, given where the last range that was
handed out ends: nothing if no nonces are asked for, else what the one read of the pending count
leads to. Along a history that end is the one of the last call that returned a range, so calls that
return none might as well not have been made. As long as no call warns, each range begins where the
one before ended or later, and every nonce is handed out once at most.
-/

namespace TxLoad

variable {σ α : Type}

/-! ## Calls that may be cut off -/

/-- A wait that begins now ends before the world is cut off. -/
def World.Allows (w : World σ) (wait : Duration) : Prop :=
  ∀ moment, w.cutOff = some moment → (w.now.plus wait).nanos ≤ moment.nanos

namespace Act

theorem sleep_of_allows {d : Duration} {w : World σ} (h : w.Allows d) :
    (sleep d : Act σ Unit) w = (.ok (), w.later d) := by
  obtain ⟨network, now, cutOff, readings, calls, notices, tally, handedOut⟩ := w
  cases cutOff with
  | none => rfl
  | some moment =>
    show (ite (moment.nanos < (now.plus d).nanos) _ _ : Act σ Unit) _ = _
    rw [if_neg (Nat.not_lt.mpr (h moment rfl))]
    rfl

theorem sleep_of_not_allows {d : Duration} {w : World σ} (h : ¬ w.Allows d) :
    ∃ moment, (sleep d : Act σ Unit) w = (.error .cut, { w with now := moment }) := by
  obtain ⟨moment, hCut, hLate⟩ : ∃ moment, w.cutOff = some moment ∧
      ¬ (w.now.plus d).nanos ≤ moment.nanos := by
    simpa [World.Allows] using h
  obtain ⟨network, now, cutOff, readings, calls, notices, tally, handedOut⟩ := w
  change cutOff = some moment at hCut
  subst hCut
  refine ⟨moment, ?_⟩
  show (ite (moment.nanos < (now.plus d).nanos) _ _ : Act σ Unit) _ = _
  rw [if_pos (Nat.not_le.mp hLate)]
  rfl

/-- The world in which a call waits for its reply. -/
def asked (call : Call) (f : σ → Reply α × σ) (w : World σ) : World σ :=
  { w with network := (f w.network).2, calls := w.calls ++ [(w.now, call)] }

theorem ask_eq (call : Call) (f : σ → Reply α × σ) (w : World σ) :
    (ask call f : Act σ α) w =
      (sleep (f w.network).1.delay >>= fun _ => ofExcept (f w.network).1.answer.toExcept)
        (asked call f w) := rfl

/-- A call that can wait for its reply comes to the answer. -/
theorem ask_of_allows (call : Call) (f : σ → Reply α × σ) {w : World σ}
    (h : w.Allows (f w.network).1.delay) :
    (ask call f : Act σ α) w =
      ((f w.network).1.answer.toExcept, (asked call f w).later (f w.network).1.delay) := by
  have hSleep : (sleep (f w.network).1.delay : Act σ Unit) (asked call f w) = _ :=
    sleep_of_allows h
  rw [ask_eq, bind_apply, hSleep]
  dsimp only
  cases (f w.network).1.answer.toExcept <;> rfl

/-- A call that cannot wait for its reply is dropped while it waits. -/
theorem ask_of_not_allows (call : Call) (f : σ → Reply α × σ) {w : World σ}
    (h : ¬ w.Allows (f w.network).1.delay) :
    ∃ moment, (ask call f : Act σ α) w = (.error .cut, { asked call f w with now := moment }) := by
  obtain ⟨moment, hSleep⟩ := sleep_of_not_allows (w := asked call f w) h
  refine ⟨moment, ?_⟩
  rw [ask_eq, bind_apply, hSleep]

end Act

namespace Reservation

variable {network : Network σ} {account : Address} {last : Word64} {call : Reservation σ}
  {history : List (Reservation σ)}

/-! ## One call -/

/-- What the endpoint replies to the read of the pending count. -/
def reply (network : Network σ) (account : Address) (call : Reservation σ) : Reply Word64 :=
  (network.pendingCount account call.begun.network).1

/-- The call has read the pending count of the account once, and has made no other call. -/
def ReadsOnce (account : Address) (call : Reservation σ) : Prop :=
  call.ended.calls = call.begun.calls ++ [(call.begun.now, .pendingCount account)]

/-- What a call for nonces comes to where the last range that was handed out ended at `last`. -/
inductive Comes (network : Network σ) (account : Address) (last : Word64)
    (call : Reservation σ) : Prop
  | empty (hSize : call.size = 0)
      (hResult : call.result = .error (.failure (.internal .emptyRange)))
      (hNothing : call.ended = call.begun)
  | dropped (hSize : call.size ≠ 0) (hReads : call.ReadsOnce account)
      (hLate : ¬ call.begun.Allows (call.reply network account).delay)
      (hResult : call.result = .error .cut) (hSilent : call.warnings = [])
  | unread {s : Stop} (hSize : call.size ≠ 0) (hReads : call.ReadsOnce account)
      (hInTime : call.begun.Allows (call.reply network account).delay)
      (hAnswer : (call.reply network account).answer.toExcept = .error s)
      (hResult : call.result = .error s) (hSilent : call.warnings = [])
  | overflowed {pending : Word64} (hSize : call.size ≠ 0) (hReads : call.ReadsOnce account)
      (hInTime : call.begun.Allows (call.reply network account).delay)
      (hAnswer : (call.reply network account).answer = .value pending)
      (hRange : 2 ^ 64 ≤ pending.toNat + call.size.toNat)
      (hResult : call.result = .error (.fault .addOverflow))
      (hWarned : call.warnings = lagWarningsFor pending last)
  | reserved {range : NonceRange} (hSize : call.size ≠ 0) (hReads : call.ReadsOnce account)
      (hInTime : call.begun.Allows (call.reply network account).delay)
      (hAnswer : (call.reply network account).answer = .value range.first)
      (hRange : range.first.toNat + call.size.toNat < 2 ^ 64)
      (hStop : range.stop.toNat = range.first.toNat + call.size.toNat)
      (hResult : call.result = .ok range)
      (hWarned : call.warnings = lagWarningsFor range.first last)

/-- The world once the pending count is read. -/
def counted (network : Network σ) (account : Address) (w : World σ) : World σ :=
  (Act.asked (.pendingCount account) (network.pendingCount account) w).later
    (network.pendingCount account w.network).1.delay

theorem read_of_allows (hInTime : call.begun.Allows (call.reply network account).delay) :
    Act.ask (.pendingCount account) (network.pendingCount account) call.begun =
      ((call.reply network account).answer.toExcept, counted network account call.begun) :=
  Act.ask_of_allows _ _ hInTime

/-- A call whose read stops goes no further. -/
theorem eq_of_read_stops {s : Stop} {w : World σ} (hSize : call.size ≠ 0)
    (hRead : Act.ask (.pendingCount account) (network.pendingCount account) call.begun =
      (.error s, w))
    (hCall : NonceRange.reserve network account call.size call.begun = (call.result, call.ended)) :
    call.result = .error s ∧ call.ended = w := by
  have hStops : (NonceRange.reserve network account call.size).Stops call.begun s w := by
    rw [NonceRange.reserve_of_ne_zero network account hSize]
    exact Act.stops_bind.mpr (.inl hRead)
  have hEnd := hCall.symm.trans hStops
  exact ⟨congrArg Prod.fst hEnd, congrArg Prod.snd hEnd⟩

theorem silent_of_notices (h : call.ended.notices = call.begun.notices) : call.warnings = [] := by
  refine World.lagWarningsUntil_of_eq ?_
  unfold World.lagWarnings
  rw [h, List.append_nil]

/-- A call that reads `pending` warns if it must, and hands out the nonces from there on unless
there is no room for them below `2 ^ 64`. -/
theorem comes_of_value {pending : Word64} (hSize : call.size ≠ 0)
    (hInTime : call.begun.Allows (call.reply network account).delay)
    (hAnswer : (call.reply network account).answer = .value pending)
    (hCall : NonceRange.reserve network account call.size call.begun = (call.result, call.ended)) :
    Comes network account call.begun.handedOut call := by
  have hRead := read_of_allows hInTime
  rw [Answer.toExcept_eq_ok_iff.mpr hAnswer] at hRead
  rw [NonceRange.reserve_of_read hSize hRead, NonceRange.handOut_apply] at hCall
  have hWarned := NonceRange.lagWarnings_warned pending (counted network account call.begun)
  cases hStop : pending.plus call.size with
  | error fault =>
    rw [hStop] at hCall
    have hEnded : call.ended = NonceRange.warned pending (counted network account call.begun) :=
      (congrArg Prod.snd hCall).symm
    obtain ⟨hRange, rfl⟩ := fit_eq_error_iff.mp hStop
    refine .overflowed hSize (by rw [ReadsOnce, hEnded]; rfl) hInTime hAnswer hRange
      (congrArg Prod.fst hCall).symm (World.lagWarningsUntil_of_eq ?_)
    rw [hEnded]
    exact hWarned
  | ok stop =>
    rw [hStop] at hCall
    have hEnded : call.ended =
        { NonceRange.warned pending (counted network account call.begun) with
          handedOut := stop
          notices := (NonceRange.warned pending (counted network account call.begun)).notices ++
            [.noncesReserved pending stop] } := (congrArg Prod.snd hCall).symm
    have hSum : stop.toNat = pending.toNat + call.size.toNat := fit_eq_ok_iff.mp hStop
    have hResult : call.result = .ok ⟨pending, stop⟩ := (congrArg Prod.fst hCall).symm
    refine .reserved hSize (by rw [ReadsOnce, hEnded]; rfl) hInTime hAnswer (hSum ▸ stop.isLt) hSum
      hResult (World.lagWarningsUntil_of_eq ?_)
    rw [hEnded, World.lagWarnings_of_notices rfl, hWarned]
    exact List.append_nil _

theorem comes_of_reserve
    (hCall : NonceRange.reserve network account call.size call.begun = (call.result, call.ended)) :
    Comes network account call.begun.handedOut call := by
  by_cases hSize : call.size = 0
  · have hEnd : NonceRange.reserve network account call.size call.begun =
        (.error (.failure (.internal .emptyRange)), call.begun) := by
      rw [hSize]
      rfl
    have hCall := hCall.symm.trans hEnd
    exact .empty hSize (congrArg Prod.fst hCall) (congrArg Prod.snd hCall)
  by_cases hInTime : call.begun.Allows (call.reply network account).delay
  · cases hAnswer : (call.reply network account).answer.toExcept with
    | ok pending =>
      exact comes_of_value hSize hInTime (Answer.toExcept_eq_ok_iff.mp hAnswer) hCall
    | error s =>
      have hRead := read_of_allows hInTime
      rw [hAnswer] at hRead
      obtain ⟨hResult, hEnded⟩ := eq_of_read_stops hSize hRead hCall
      exact .unread hSize (by rw [ReadsOnce, hEnded]; rfl) hInTime hAnswer hResult
        (silent_of_notices (by rw [hEnded]; rfl))
  · obtain ⟨moment, hRead⟩ := Act.ask_of_not_allows (.pendingCount account)
      (network.pendingCount account) hInTime
    obtain ⟨hResult, hEnded⟩ := eq_of_read_stops hSize hRead hCall
    exact .dropped hSize (by rw [ReadsOnce, hEnded]; rfl) hInTime hResult
      (silent_of_notices (by rw [hEnded]; rfl))

/-- A call warns of nothing, or of the pending count that it reads. -/
theorem Comes.warnings_eq (h : Comes network account last call) :
    call.warnings = [] ∨ ∃ pending, (call.reply network account).answer = .value pending ∧
      call.warnings = lagWarningsFor pending last := by
  cases h with
  | empty _ _ hNothing => exact .inl (silent_of_notices (by rw [hNothing]))
  | dropped _ _ _ _ hSilent => exact .inl hSilent
  | unread _ _ _ _ _ hSilent => exact .inl hSilent
  | overflowed _ _ _ hAnswer _ _ hWarned => exact .inr ⟨_, hAnswer, hWarned⟩
  | reserved _ _ _ hAnswer _ _ _ hWarned => exact .inr ⟨_, hAnswer, hWarned⟩

/-- A warning shows the pending count that was read, the end of the last range and the difference of
the two. -/
theorem Comes.fields_of_warning (h : Comes network account last call) {notice : Notice}
    (hNotice : notice ∈ call.warnings) :
    ∃ pending, (call.reply network account).answer = .value pending ∧
      pending.toNat < last.toNat ∧ notice.level = .warn ∧
      notice.fields = [("pending", .number pending.toNat), ("expected", .number last.toNat),
        ("lag", .number (last.toNat - pending.toNat))] := by
  rcases h.warnings_eq with hSilent | ⟨pending, hAnswer, hWarned⟩
  · rw [hSilent] at hNotice
    cases hNotice
  · rw [hWarned] at hNotice
    unfold lagWarningsFor at hNotice
    split at hNotice
    · rename_i hLess
      obtain rfl := List.mem_singleton.mp hNotice
      exact ⟨pending, hAnswer, hLess, rfl, rfl⟩
    · cases hNotice

/-- A call that returns a range has it remembered where the range ends; any other call leaves what
is remembered as it is. -/
theorem handedOut_ended
    (hCall : NonceRange.reserve network account call.size call.begun = (call.result, call.ended)) :
    call.ended.handedOut =
      (call.result.toOption.map NonceRange.stop).getD call.begun.handedOut := by
  have hReserves := NonceRange.reserves_reserve network account call.size call.begun
  rw [hCall] at hReserves
  generalize call.result = result at hReserves
  generalize call.ended = ended at hReserves
  cases hReserves with
  | unread hBooks => exact congrArg Prod.fst hBooks
  | overflowed _ _ hLast _ => exact hLast
  | reserved _ _ _ hLast _ => exact hLast

/-! ## Histories -/

/-- The ranges that the calls return. -/
def ranges (history : List (Reservation σ)) : List NonceRange :=
  history.filterMap fun call => call.result.toOption

/-- Where the last range that the calls return ends, and `first` if they return none. -/
def endFrom (first : Word64) (history : List (Reservation σ)) : Word64 :=
  ((ranges history).getLast?.map NonceRange.stop).getD first

theorem endFrom_cons (first : Word64) (call : Reservation σ) (history : List (Reservation σ)) :
    endFrom first (call :: history) =
      endFrom ((call.result.toOption.map NonceRange.stop).getD first) history := by
  unfold endFrom ranges
  cases hResult : call.result.toOption with
  | none => simp [hResult]
  | some range =>
    rw [List.filterMap_cons, hResult, List.getLast?_cons]
    cases (history.filterMap fun call => call.result.toOption).getLast? <;> rfl

/-- A call of a history begins where the last range before it ended. -/
theorem Linked.begins {before after : List (Reservation σ)}
    (h : Linked network account last (before ++ call :: after)) :
    call.begun.handedOut = endFrom last before ∧
      NonceRange.reserve network account call.size call.begun = (call.result, call.ended) := by
  induction before generalizing last with
  | nil => exact ⟨h.1, h.2.1⟩
  | cons early before ih =>
    obtain ⟨rfl, hEarly, hRest⟩ := h
    rw [endFrom_cons, ← handedOut_ended hEarly]
    exact ih hRest

/-- Calls that return no range might as well not have been made. -/
theorem Linked.filter (h : Linked network account last history) :
    Linked network account last (history.filter fun call => call.result.isOk) := by
  induction history generalizing last with
  | nil => exact h
  | cons call history ih =>
    obtain ⟨rfl, hCall, hRest⟩ := h
    have hLast := handedOut_ended hCall
    have hRest := ih hRest
    cases hResult : call.result with
    | ok range =>
      rw [List.filter_cons_of_pos (by rw [hResult]; rfl)]
      exact ⟨rfl, hCall, hRest⟩
    | error s =>
      rw [List.filter_cons_of_neg (by rw [hResult]; simp [Except.isOk, Except.toBool])]
      rw [hResult] at hLast
      rwa [hLast] at hRest

/-! ### Silent histories -/

/-- A call that returns a range and does not warn takes it from where the last range ended, or from
later on. -/
theorem first_of_silent {range : NonceRange}
    (hCall : NonceRange.reserve network account call.size call.begun = (call.result, call.ended))
    (hResult : call.result = .ok range) (hSilent : call.warnings = []) :
    call.begun.handedOut.toNat ≤ range.first.toNat ∧ range.first.toNat < range.stop.toNat := by
  have hComes := comes_of_reserve hCall
  cases hComes with
  | empty _ hOther _ => cases hOther.symm.trans hResult
  | dropped _ _ _ hOther _ => cases hOther.symm.trans hResult
  | unread _ _ _ _ hOther _ => cases hOther.symm.trans hResult
  | overflowed _ _ _ _ _ hOther _ => cases hOther.symm.trans hResult
  | reserved hSize _ _ _ _ hStop hReturned hWarned =>
    obtain rfl := Except.ok.inj (hReturned.symm.trans hResult)
    have hSome := Word64.toNat_ne_zero hSize
    rw [hSilent] at hWarned
    exact ⟨lagWarningsFor_eq_nil_iff.mp hWarned.symm, by omega⟩

/-- The ranges of calls that do not warn follow one another. -/
theorem pairwise_ranges (h : Linked network account last history)
    (hSilent : ∀ call ∈ history, call.warnings = []) :
    (∀ range ∈ ranges history, last.toNat ≤ range.first.toNat) ∧
      (ranges history).Pairwise fun early late => early.stop.toNat ≤ late.first.toNat := by
  induction history generalizing last with
  | nil => exact ⟨List.forall_mem_nil _, List.Pairwise.nil⟩
  | cons call history ih =>
    obtain ⟨rfl, hCall, hRest⟩ := h
    obtain ⟨hHere, hSilent⟩ := List.forall_mem_cons.mp hSilent
    obtain ⟨hLater, hPairwise⟩ := ih hRest hSilent
    have hLast := handedOut_ended hCall
    cases hResult : call.result with
    | ok range =>
      obtain ⟨hFirst, hSome⟩ := first_of_silent hCall hResult hHere
      rw [hResult] at hLast
      change call.ended.handedOut = range.stop at hLast
      rw [hLast] at hLater
      have hRanges : ranges (call :: history) = range :: ranges history := by
        simp [ranges, hResult, Except.toOption]
      rw [hRanges]
      refine ⟨?_, List.Pairwise.cons hLater hPairwise⟩
      intro late hMem
      rcases List.mem_cons.mp hMem with rfl | hMem
      · exact hFirst
      · have := hLater late hMem
        omega
    | error s =>
      rw [hResult] at hLast
      change call.ended.handedOut = call.begun.handedOut at hLast
      rw [hLast] at hLater
      have hRanges : ranges (call :: history) = ranges history := by
        simp [ranges, hResult, Except.toOption]
      rw [hRanges]
      exact ⟨hLater, hPairwise⟩

theorem flatMap_nonces (history : List (Reservation σ)) :
    history.flatMap nonces = (ranges history).flatMap NonceRange.toList := by
  induction history with
  | nil => rfl
  | cons call history ih =>
    unfold ranges nonces at *
    cases hResult : call.result <;> simp [hResult, ih, Except.toOption]

/-- Calls that do not warn hand out ever larger nonces. -/
theorem pairwise_nonces (h : Linked network account last history)
    (hSilent : ∀ call ∈ history, call.warnings = []) :
    (history.flatMap nonces).Pairwise fun early late => early.toNat < late.toNat := by
  rw [flatMap_nonces, List.pairwise_flatMap]
  constructor
  · intro range _
    have hSorted : (range.toList.map BitVec.toNat).Pairwise (· < ·) := by
      rw [NonceRange.map_toNat_toList, List.pairwise_map]
      exact List.pairwise_lt_range.imp fun hLess => by omega
    exact List.pairwise_map.mp hSorted
  · refine (pairwise_ranges h hSilent).2.imp ?_
    intro early late hFollows nonce hEarly other hLate
    have hEnd := (NonceRange.mem_toList_iff.mp hEarly).2
    have hStart := (NonceRange.mem_toList_iff.mp hLate).1
    omega

/-- Each call of a history comes to what its size, its read of the pending count and the end of the
last range before it say; the calls that return no range make no difference to the others; and as
long as no call warns, the ranges follow one another and no nonce is handed out twice. -/
theorem calls_reserve_exactly (h : Linked network account 0 history) :
    (∀ before call after, history = before ++ call :: after →
        Comes network account (endFrom 0 before) call ∧
        ∀ notice ∈ call.warnings, ∃ pending,
          (call.reply network account).answer = .value pending ∧
          pending.toNat < (endFrom 0 before).toNat ∧ notice.level = .warn ∧
          notice.fields = [("pending", .number pending.toNat),
            ("expected", .number (endFrom 0 before).toNat),
            ("lag", .number ((endFrom 0 before).toNat - pending.toNat))]) ∧
      Linked network account 0 (history.filter fun call => call.result.isOk) ∧
      ((∀ call ∈ history, call.warnings = []) →
        (ranges history).Pairwise (fun early late => early.stop.toNat ≤ late.first.toNat) ∧
        (history.flatMap nonces).Pairwise (fun early late => early.toNat < late.toNat) ∧
        (history.flatMap nonces).Nodup) := by
  refine ⟨?_, h.filter, ?_⟩
  · rintro before call after rfl
    obtain ⟨hBegun, hCall⟩ := h.begins
    have hComes := comes_of_reserve hCall
    rw [hBegun] at hComes
    exact ⟨hComes, fun notice hNotice => hComes.fields_of_warning hNotice⟩
  · intro hSilent
    have hIncreasing := pairwise_nonces h hSilent
    refine ⟨(pairwise_ranges h hSilent).2, hIncreasing, hIncreasing.imp ?_⟩
    rintro early late hLess rfl
    exact Nat.lt_irrefl _ hLess

/-- Five nonces from 10 on, none, three from the last word on and four from 15 on. -/
def steady : List (Reservation (List Word64)) :=
  callsFor [5, 0, 3, 4] { network := [10, 0xFFFFFFFFFFFFFFFF, 15] }

/-- The calls that are refused or find no room leave no gap in what is handed out. -/
theorem steady_hands_out_once :
    Linked countsInTurn ⟨0⟩ 0 steady ∧ (∀ call ∈ steady, call.warnings = []) ∧
      (steady.flatMap nonces).map BitVec.toNat = List.range' 10 9 ∧
      (steady.flatMap nonces).Nodup ∧
      ∃ first empty full after, steady = first :: empty :: full :: after ∧
        full.result = .error (.fault .addOverflow) ∧ Comes countsInTurn ⟨0⟩ 15 full := by
  have hLinked : Linked countsInTurn ⟨0⟩ 0 steady :=
    linked_callsFor [5, 0, 3, 4] { network := [10, 0xFFFFFFFFFFFFFFFF, 15] }
  have hSilent : ∀ call ∈ steady, call.warnings = [] := by decide
  obtain ⟨hComes, _, hOnce⟩ := calls_reserve_exactly hLinked
  refine ⟨hLinked, hSilent, by decide, (hOnce hSilent).2.2, _, _, _, _, rfl, by decide, ?_⟩
  exact (hComes [_, _] _ _ rfl).1

end Reservation

end TxLoad

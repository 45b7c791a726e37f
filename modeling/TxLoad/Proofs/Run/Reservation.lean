import TxLoad.Proofs.Run.Preparation

/-! # The calls for nonces that one account makes

A call for nonces reads the pending count and hands out the nonces from there on. It remembers where
they end, and warns when the next count it reads is below that end. `reserves_reserve` says all that
a call can come to, in a world that may be cut off at any moment.

What is remembered is the end of the last range only. A count that falls back and recovers can thus
have nonces handed out again without a warning at that moment; but then there was a warning when the
count fell back.
-/

namespace TxLoad

variable {σ : Type}

/-! ## Warnings -/

/-- The notice warns that the pending count lags behind. -/
def Notice.isLag : Notice → Bool
  | .pendingLags _ _ => true
  | _ => false

/-- The warnings about the pending count so far. -/
def World.lagWarnings (w : World σ) : List Notice := w.notices.filter Notice.isLag

/-- Those that were given between two worlds. -/
def World.lagWarningsUntil (w v : World σ) : List Notice :=
  v.lagWarnings.drop w.lagWarnings.length

/-- The warnings for a pending count where the nonces up to `expected` were handed out. -/
def lagWarningsFor (pending expected : Word64) : List Notice :=
  if pending < expected then [.pendingLags pending expected] else []

theorem World.lagWarningsUntil_of_eq {w v : World σ} {given : List Notice}
    (h : v.lagWarnings = w.lagWarnings ++ given) : w.lagWarningsUntil v = given := by
  unfold lagWarningsUntil
  rw [h, List.drop_left]

theorem World.lagWarnings_of_notices {w v : World σ} {notices : List Notice}
    (h : v.notices = w.notices ++ notices) :
    v.lagWarnings = w.lagWarnings ++ notices.filter Notice.isLag := by
  unfold lagWarnings
  rw [h, List.filter_append]

theorem lagWarningsFor_eq_nil_iff {pending expected : Word64} :
    lagWarningsFor pending expected = [] ↔ expected.toNat ≤ pending.toNat := by
  unfold lagWarningsFor
  split
  · rename_i hLess
    have hLess : pending.toNat < expected.toNat := hLess
    exact iff_of_false (List.cons_ne_nil _ _) (Nat.not_le.mpr hLess)
  · rename_i hNotLess
    exact iff_of_true rfl (Nat.not_lt.mp hNotLess)

theorem filter_lagWarningsFor (pending expected : Word64) :
    (lagWarningsFor pending expected).filter Notice.isLag = lagWarningsFor pending expected := by
  unfold lagWarningsFor
  split <;> rfl

/-! ## One call -/

namespace NonceRange

/-- What the later calls of an account depend on, and what it has warned of. -/
def books (w : World σ) : Word64 × List Notice := (w.handedOut, w.lagWarnings)

/-- What a call for `size` nonces comes to: the pending count cannot be read, the nonces from it on
would leave the range of a word, or they are handed out. -/
inductive Reserves (network : Network σ) (account : Address) (size : Word64) (w : World σ) :
    Except Stop NonceRange → World σ → Prop
  | unread {s : Stop} {w' : World σ} (hBooks : books w' = books w) :
      Reserves network account size w (.error s) w'
  | overflowed {pending : Word64} {w' : World σ}
      (hPending : (network.pendingCount account w.network).1.answer = .value pending)
      (hRange : 2 ^ 64 ≤ pending.toNat + size.toNat) (hLast : w'.handedOut = w.handedOut)
      (hWarned : w'.lagWarnings = w.lagWarnings ++ lagWarningsFor pending w.handedOut) :
      Reserves network account size w (.error (.fault .addOverflow)) w'
  | reserved {range : NonceRange} {w' : World σ} (hSize : size ≠ 0)
      (hPending : (network.pendingCount account w.network).1.answer = .value range.first)
      (hStop : range.stop.toNat = range.first.toNat + size.toNat)
      (hLast : w'.handedOut = range.stop)
      (hWarned : w'.lagWarnings = w.lagWarnings ++ lagWarningsFor range.first w.handedOut) :
      Reserves network account size w (.ok range) w'

/-- The world once the warnings that a pending count calls for are given. -/
def warned (pending : Word64) (w : World σ) : World σ :=
  { w with notices := w.notices ++ lagWarningsFor pending w.handedOut }

theorem lagWarnings_warned (pending : Word64) (w : World σ) :
    (warned pending w).lagWarnings = w.lagWarnings ++ lagWarningsFor pending w.handedOut := by
  rw [World.lagWarnings_of_notices rfl, filter_lagWarningsFor]

theorem handOut_apply (pending size : Word64) (w : World σ) :
    (handOut pending size : Act σ NonceRange) w =
      match pending.plus size with
      | .ok stop => (.ok ⟨pending, stop⟩,
          { w with handedOut := stop, notices := w.notices ++ [.noncesReserved pending stop] })
      | .error f => (.error (.fault f), w) := by
  unfold handOut
  cases pending.plus size <;> rfl

theorem keeps_books_ask {α : Type} (call : Call) (f : σ → Reply α × σ) :
    Act.Keeps books (Act.ask call f) :=
  Act.keeps_ask call (fun _ _ => rfl) (fun _ => rfl) (fun _ _ => rfl)

/-- A call that has read the pending count warns, if it must, and then hands out the nonces. -/
theorem reserve_of_read {network : Network σ} {account : Address} {size pending : Word64}
    {w v : World σ} (hSize : size ≠ 0)
    (hRead : (Act.ask (.pendingCount account) (network.pendingCount account)).Returns w pending v) :
    reserve network account size w = handOut pending size (warned pending v) := by
  rw [reserve_of_ne_zero network account hSize, Act.bind_apply,
    show Act.ask _ _ w = (.ok pending, v) from hRead]
  show (ite (pending < v.handedOut) _ _ : Act σ NonceRange) v = _
  unfold warned lagWarningsFor
  by_cases hLags : pending < v.handedOut
  · rw [if_pos hLags, if_pos hLags]
    rfl
  · rw [if_neg hLags, if_neg hLags, List.append_nil]

theorem reserves_reserve (network : Network σ) (account : Address) (size : Word64) (w : World σ) :
    Reserves network account size w (reserve network account size w).1
      (reserve network account size w).2 := by
  by_cases hSize : size = 0
  · subst hSize
    exact .unread rfl
  have hKeeps := keeps_books_ask (.pendingCount account) (network.pendingCount account)
  rcases (Act.ask (.pendingCount account) (network.pendingCount account)).returns_or_stops w with
    ⟨pending, v, hRead⟩ | ⟨s, v, hStops⟩
  · have hBooks : books v = books w := hKeeps.of_returns hRead
    have hLast : v.handedOut = w.handedOut := congrArg Prod.fst hBooks
    have hBefore : v.lagWarnings = w.lagWarnings := congrArg Prod.snd hBooks
    have hWarned : (warned pending v).lagWarnings =
        w.lagWarnings ++ lagWarningsFor pending w.handedOut := by
      rw [lagWarnings_warned, hLast, hBefore]
    rw [reserve_of_read hSize hRead, handOut_apply]
    cases hStop : pending.plus size with
    | error f =>
      obtain ⟨hRange, rfl⟩ := fit_eq_error_iff.mp hStop
      exact .overflowed (Act.returns_ask hRead) hRange hLast hWarned
    | ok stop =>
      refine .reserved hSize (Act.returns_ask hRead) (fit_eq_ok_iff.mp hStop) rfl ?_
      rw [World.lagWarnings_of_notices rfl, hWarned]
      exact List.append_nil _
  · have hReserve : reserve network account size w = (.error s, v) := by
      rw [reserve_of_ne_zero network account hSize]
      exact Act.stops_bind.mpr (.inl hStops)
    rw [hReserve]
    exact .unread (hKeeps.of_stops hStops)

theorem map_toNat_toList (range : NonceRange) :
    range.toList.map BitVec.toNat = (List.range range.size).map (range.first.toNat + ·) := by
  have hStop := range.stop.isLt
  unfold toList size
  rw [List.map_map]
  refine List.map_congr_left fun i hi => ?_
  have hi := List.mem_range.mp hi
  show (BitVec.ofNat 64 (range.first.toNat + i)).toNat = _
  rw [BitVec.toNat_ofNat, Nat.mod_eq_of_lt (by omega)]

/-- The nonces of a range are those from its first up to its end. -/
theorem mem_toList_iff {range : NonceRange} {nonce : Word64} :
    nonce ∈ range.toList ↔
      range.first.toNat ≤ nonce.toNat ∧ nonce.toNat < range.stop.toNat := by
  have hInjective : Function.Injective (BitVec.toNat : Word64 → Nat) :=
    fun _ _ h => BitVec.eq_of_toNat_eq h
  rw [← List.mem_map_of_injective hInjective, map_toNat_toList, List.mem_map]
  unfold size
  constructor
  · rintro ⟨i, hi, hEq⟩
    have hi := List.mem_range.mp hi
    omega
  · rintro ⟨hFirst, hLast⟩
    exact ⟨nonce.toNat - range.first.toNat, List.mem_range.mpr (by omega), by omega⟩

end NonceRange

/-! ## Histories -/

/-- A call for nonces, and what it comes to. -/
structure Reservation (σ : Type) where
  size : Word64
  begun : World σ
  result : Except Stop NonceRange
  ended : World σ

namespace Reservation

/-- The nonces that the call hands out. -/
def nonces (call : Reservation σ) : List Word64 :=
  match call.result with
  | .ok range => range.toList
  | .error _ => []

/-- The warnings that the call gives. -/
def warnings (call : Reservation σ) : List Notice := call.begun.lagWarningsUntil call.ended

/-- The calls are made one after the other, the first one when the nonces up to `last` have been
handed out. Whatever happens in between hands out none. -/
def Linked (network : Network σ) (account : Address) : Word64 → List (Reservation σ) → Prop
  | _, [] => True
  | last, call :: rest =>
    call.begun.handedOut = last ∧
      NonceRange.reserve network account call.size call.begun = (call.result, call.ended) ∧
      Linked network account call.ended.handedOut rest

variable {network : Network σ} {account : Address} {last : Word64}

theorem Linked.of_append {before rest : List (Reservation σ)}
    (h : Linked network account last (before ++ rest)) :
    ∃ later, Linked network account later rest := by
  induction before generalizing last with
  | nil => exact ⟨last, h⟩
  | cons call before ih => exact ih h.2.2

/-- A call that returns a range has remembered its end, and has warned unless the range begins where
the last one ended or later. A call that returns none has remembered nothing. -/
theorem returned_or_kept {call : Reservation σ}
    (h : NonceRange.reserve network account call.size call.begun = (call.result, call.ended)) :
    (∃ range : NonceRange, call.nonces = range.toList ∧ call.ended.handedOut = range.stop ∧
        range.first.toNat < range.stop.toNat ∧
        (call.warnings = [] ↔ call.begun.handedOut.toNat ≤ range.first.toNat)) ∨
      call.nonces = [] ∧ call.ended.handedOut = call.begun.handedOut := by
  obtain ⟨size, begun, result, ended⟩ := call
  have hReserves := NonceRange.reserves_reserve network account size begun
  rw [h] at hReserves
  cases hReserves with
  | unread hBooks => exact .inr ⟨rfl, congrArg Prod.fst hBooks⟩
  | overflowed _ _ hLast _ => exact .inr ⟨rfl, hLast⟩
  | @reserved range _ hSize _ hStop hLast hWarned =>
    have hPos : size.toNat ≠ 0 := Word64.toNat_ne_zero hSize
    refine .inl ⟨range, rfl, hLast, by omega, ?_⟩
    show begun.lagWarningsUntil ended = [] ↔ _
    rw [World.lagWarningsUntil_of_eq hWarned]
    exact lagWarningsFor_eq_nil_iff

/-- A nonce below what was handed out last is handed out again only after a warning. -/
theorem exists_warning_of_lt {between after : List (Reservation σ)} {late : Reservation σ}
    {nonce : Word64} (h : Linked network account last (between ++ late :: after))
    (hBelow : nonce.toNat < last.toNat) (hLate : nonce ∈ late.nonces) :
    ∃ call ∈ between ++ [late], call.nonces ≠ [] ∧ call.warnings ≠ [] := by
  induction between generalizing last with
  | nil =>
    obtain ⟨rfl, hCall, _⟩ := h
    refine ⟨late, List.mem_singleton.mpr rfl, List.ne_nil_of_mem hLate, ?_⟩
    rcases returned_or_kept hCall with ⟨range, hNonces, _, _, hWarned⟩ | ⟨hNone, _⟩
    · rw [hNonces] at hLate
      have hFirst := (NonceRange.mem_toList_iff.mp hLate).1
      intro hNone
      have hNotBelow := hWarned.mp hNone
      omega
    · rw [hNone] at hLate
      cases hLate
  | cons call between ih =>
    obtain ⟨rfl, hCall, hRest⟩ := h
    by_cases hTold : call.nonces ≠ [] ∧ call.warnings ≠ []
    · exact ⟨call, List.mem_cons_self, hTold⟩
    · -- without a warning, the call remembers no less than was remembered before it
      have hStill : nonce.toNat < call.ended.handedOut.toNat := by
        rcases returned_or_kept hCall with ⟨range, hNonces, hLast, hSome, hWarned⟩ | ⟨_, hKept⟩
        · have hFirst : range.first ∈ call.nonces := by
            rw [hNonces]
            exact NonceRange.mem_toList_iff.mpr ⟨Nat.le_refl _, hSome⟩
          have hSilent : call.warnings = [] := by
            by_contra hWarns
            exact hTold ⟨List.ne_nil_of_mem hFirst, hWarns⟩
          have hNotBelow := hWarned.mp hSilent
          rw [hLast]
          omega
        · rwa [hKept]
      obtain ⟨warner, hMem, hWarner⟩ := ih hRest hStill
      exact ⟨warner, List.mem_cons_of_mem _ hMem, hWarner⟩

/-- Where a nonce is handed out a second time, that call or one since the first has returned a range
with a warning. So if no range was returned in between, the call itself has warned. -/
theorem exists_warning_of_reused {history : List (Reservation σ)}
    (h : Linked network account 0 history) :
    ∀ before early between late after,
      history = before ++ early :: (between ++ late :: after) →
      ∀ nonce ∈ early.nonces, nonce ∈ late.nonces →
        (∃ call ∈ between ++ [late], call.nonces ≠ [] ∧ call.warnings ≠ []) ∧
          ((∀ call ∈ between, call.nonces = []) → late.warnings ≠ []) := by
  rintro before early between late after rfl nonce hEarly hLate
  obtain ⟨_, _, hCall, hRest⟩ := h.of_append
  have hBelow : nonce.toNat < early.ended.handedOut.toNat := by
    rcases returned_or_kept hCall with ⟨range, hNonces, hLast, _, _⟩ | ⟨hNone, _⟩
    · rw [hNonces] at hEarly
      rw [hLast]
      exact (NonceRange.mem_toList_iff.mp hEarly).2
    · rw [hNone] at hEarly
      cases hEarly
  obtain ⟨call, hMem, hSome, hWarns⟩ := exists_warning_of_lt hRest hBelow hLate
  refine ⟨⟨call, hMem, hSome, hWarns⟩, fun hNothing => ?_⟩
  rcases List.mem_append.mp hMem with hMem | hMem
  · exact absurd (hNothing call hMem) hSome
  · obtain rfl := List.mem_singleton.mp hMem
    exact hWarns

/-! ### A count that falls back and recovers -/

/-- An endpoint with the pending counts of a list, one for each time it is asked. -/
def countsInTurn : Network (List Word64) where
  genesisTime _ s := (.now (.value 0), s)
  chainId s := (.now (.value 1), s)
  fees _ s := (⟨.now (.value 0), .now (.value (some 0)), .now (.value 0)⟩, s)
  pendingCount _ s := (.now (.value (s.headD 0)), s.tail)
  submit _ s := (none, s)
  acknowledge _ s := s

/-- The calls for ranges of the given sizes. -/
def callsFor : List Word64 → World (List Word64) → List (Reservation (List Word64))
  | [], _ => []
  | size :: sizes, w =>
    match NonceRange.reserve countsInTurn ⟨0⟩ size w with
    | (result, w') => ⟨size, w, result, w'⟩ :: callsFor sizes w'

theorem linked_callsFor (sizes : List Word64) (w : World (List Word64)) :
    Linked countsInTurn ⟨0⟩ w.handedOut (callsFor sizes w) := by
  induction sizes generalizing w with
  | nil => trivial
  | cons size sizes ih =>
    rcases hCall : NonceRange.reserve countsInTurn ⟨0⟩ size w with ⟨result, w'⟩
    unfold callsFor
    rw [hCall]
    exact ⟨rfl, hCall, ih w'⟩

/-- Five nonces from 10 on, two from 3 on and five from 10 on again. -/
def relapse : List (Reservation (List Word64)) := callsFor [5, 2, 5] { network := [10, 3, 10] }

/-- The third call hands out the nonces of the first once more and does not warn. -/
theorem reused_without_warning :
    ¬ ∀ history : List (Reservation (List Word64)), Linked countsInTurn ⟨0⟩ 0 history →
      ∀ before early between late after,
        history = before ++ early :: (between ++ late :: after) →
        ∀ nonce ∈ early.nonces, nonce ∈ late.nonces → late.warnings ≠ [] := by
  intro h
  have hLinked : Linked countsInTurn ⟨0⟩ 0 relapse :=
    linked_callsFor [5, 2, 5] { network := [10, 3, 10] }
  exact h relapse hLinked [] _ [_] _ [] rfl 10 (by decide) (by decide) (by decide)

/-- There, the warning came with the call in between, when the count fell back. -/
theorem relapse_warns_in_between :
    Linked countsInTurn ⟨0⟩ 0 relapse ∧
      ∃ early middle late, relapse = [early, middle, late] ∧ 10 ∈ early.nonces ∧ 10 ∈ late.nonces ∧
        ∃ call ∈ [middle, late], call.nonces ≠ [] ∧ call.warnings ≠ [] := by
  have hLinked : Linked countsInTurn ⟨0⟩ 0 relapse :=
    linked_callsFor [5, 2, 5] { network := [10, 3, 10] }
  have hFirst : (10 : Word64) ∈ (relapse.get ⟨0, by decide⟩).nonces := by decide
  have hThird : (10 : Word64) ∈ (relapse.get ⟨2, by decide⟩).nonces := by decide
  obtain ⟨hWarns, _⟩ :=
    exists_warning_of_reused hLinked [] (relapse.get ⟨0, by decide⟩)
      [relapse.get ⟨1, by decide⟩] (relapse.get ⟨2, by decide⟩) [] rfl 10 hFirst hThird
  exact ⟨hLinked, _, _, _, rfl, hFirst, hThird, hWarns⟩

end Reservation

end TxLoad

import Mathlib.Order.Bounds.Basic
import TxLoad.Proofs.Run.Counters

/-! # What a price comes to

The three reads of a price fail independently of each other. `Pricing.Comes` says what their answers
come to. An estimate so high that the gas limit would leave its word ends the computation before a
fee is looked at, and a failed one is replaced by the fallback. Then the first fee that is missing
counts, the base fee before the priority fee, and at last the fee that is offered must fit its word.

Whatever the answers are, each read is made once, and the fallback is warned of and counted exactly
if the estimate has failed.
-/

namespace TxLoad

variable {σ : Type}

/-- A sum that is checked twice, once for its first part, is the sum that is checked once. -/
theorem fit_bind_plus (n : Nat) (b : Word256) :
    (fit 256 .wideOverflow n >>= fun a => Word256.plus a b) =
      fit 256 .wideOverflow (n + b.toNat) := by
  cases hPart : fit 256 .wideOverflow n with
  | error f =>
    obtain ⟨hOut, rfl⟩ := fit_eq_error_iff.mp hPart
    symm
    apply fit_eq_error_iff.mpr
    exact ⟨Nat.le_trans hOut (Nat.le_add_right _ _), rfl⟩
  | ok a =>
    show fit 256 .wideOverflow (a.toNat + b.toNat) = _
    rw [fit_eq_ok_iff.mp hPart]

namespace Pricing

/-! ## The arithmetic of a price -/

/-- A fifth more, rounded up. -/
theorem isLeast_fifthMore (n : Nat) :
    IsLeast {limit | 6 * n ≤ 5 * limit} ((120 * n + 99) / 100) := by
  constructor
  · show 6 * n ≤ 5 * ((120 * n + 99) / 100)
    omega
  · intro limit hLimit
    change 6 * n ≤ 5 * limit at hLimit
    omega

theorem bufferedGasLimit_eq (estimate : Word256) :
    bufferedGasLimit estimate =
      fit 256 .wideOverflow (estimate.toNat * 120 + 99) >>= fun raised => pure (raised / 100) := by
  show (fit 256 .wideOverflow (estimate.toNat * 120) >>= fun scaled =>
    Word256.plus scaled 99 >>= fun raised => pure (raised / 100)) = _
  rw [← bind_assoc, fit_bind_plus]
  rfl

theorem bufferedGasLimit_of_lt {estimate : Word256} (h : 120 * estimate.toNat + 99 < 2 ^ 256) :
    ∃ limit, bufferedGasLimit estimate = .ok limit ∧
      IsLeast {n | 6 * estimate.toNat ≤ 5 * n} limit.toNat := by
  have hRaised : fit 256 .wideOverflow (estimate.toNat * 120 + 99) =
      .ok (BitVec.ofNat 256 (120 * estimate.toNat + 99)) := by
    apply fit_eq_ok_iff.mpr
    rw [BitVec.toNat_ofNat, Nat.mod_eq_of_lt h, Nat.mul_comm]
  refine ⟨BitVec.ofNat 256 (120 * estimate.toNat + 99) / 100, ?_, ?_⟩
  · rw [bufferedGasLimit_eq, hRaised]
    rfl
  · have hHundred : (100 : Word256).toNat = 100 := rfl
    rw [BitVec.toNat_udiv, BitVec.toNat_ofNat, Nat.mod_eq_of_lt h, hHundred]
    exact isLeast_fifthMore _

theorem bufferedGasLimit_of_le {estimate : Word256} (h : 2 ^ 256 ≤ 120 * estimate.toNat + 99) :
    bufferedGasLimit estimate = .error .wideOverflow := by
  have hRaised : fit 256 .wideOverflow (estimate.toNat * 120 + 99) = .error .wideOverflow := by
    apply fit_eq_error_iff.mpr
    rw [Nat.mul_comm]
    exact ⟨h, rfl⟩
  rw [bufferedGasLimit_eq, hRaised]
  rfl

theorem offeredFee_eq (baseFee priorityFee : Word256) :
    offeredFee baseFee priorityFee =
      fit 256 .wideOverflow (2 * baseFee.toNat + priorityFee.toNat) := by
  rw [Nat.mul_comm]
  exact fit_bind_plus _ _

/-! ## What the answers come to -/

/-- The gas limit that follows from an estimate: the least one that is a fifth more, or else the
fallback. -/
inductive Limits : Answer Word256 → Word256 → Prop
  | estimated {estimate limit : Word256} (hRoom : 120 * estimate.toNat + 99 < 2 ^ 256)
      (hLeast : IsLeast {n | 6 * estimate.toNat ≤ 5 * n} limit.toNat) :
      Limits (.value estimate) limit
  | fallback {f : Failure} : Limits (.failure f) 40000

/-- What the fees come to once there is a gas limit. -/
inductive Offers (limit : Word256) :
    Answer (Option Word256) → Answer Word256 → Except Stop Pricing → Prop
  | baseFeeFailed {f : Failure} {priorityFee : Answer Word256} :
      Offers limit (.failure f) priorityFee (.error (.failure f))
  | noBaseFee {priorityFee : Answer Word256} :
      Offers limit (.value none) priorityFee (.error (.failure (.pricing .noBaseFee)))
  | priorityFeeFailed {base : Word256} {f : Failure} :
      Offers limit (.value (some base)) (.failure f) (.error (.failure f))
  | overflowed {base priority : Word256} (hOut : 2 ^ 256 ≤ 2 * base.toNat + priority.toNat) :
      Offers limit (.value (some base)) (.value priority) (.error (.fault .wideOverflow))
  | priced {base priority maxFee : Word256}
      (hMax : maxFee.toNat = 2 * base.toNat + priority.toNat) :
      Offers limit (.value (some base)) (.value priority) (.ok ⟨limit, maxFee, priority⟩)

/-- What the answers to the three reads of a price come to. -/
inductive Comes : Answer Word256 → Answer (Option Word256) → Answer Word256 →
    Except Stop Pricing → Prop
  | overflowed {estimate : Word256} {baseFee : Answer (Option Word256)}
      {priorityFee : Answer Word256} (hOut : 2 ^ 256 ≤ 120 * estimate.toNat + 99) :
      Comes (.value estimate) baseFee priorityFee (.error (.fault .wideOverflow))
  | limited {estimate : Answer Word256} {limit : Word256} {baseFee : Answer (Option Word256)}
      {priorityFee : Answer Word256} {result : Except Stop Pricing}
      (hLimit : Limits estimate limit) (hFees : Offers limit baseFee priorityFee result) :
      Comes estimate baseFee priorityFee result

section Outcomes

variable {estimate : Answer Word256} {limit limit' : Word256} {baseFee : Answer (Option Word256)}
  {priorityFee : Answer Word256} {result result' : Except Stop Pricing}

theorem Limits.unique (h : Limits estimate limit) (g : Limits estimate limit') :
    limit = limit' := by
  cases h with
  | estimated _ hLeast =>
    cases g with
    | estimated _ hLeast' => exact BitVec.eq_of_toNat_eq (hLeast.unique hLeast')
  | fallback =>
    cases g with
    | fallback => rfl

theorem Offers.unique (h : Offers limit baseFee priorityFee result)
    (g : Offers limit baseFee priorityFee result') : result = result' := by
  cases h with
  | baseFeeFailed => cases g; rfl
  | noBaseFee => cases g; rfl
  | priorityFeeFailed => cases g; rfl
  | overflowed hOut =>
    cases g with
    | overflowed _ => rfl
    | @priced _ _ maxFee hMax =>
      have hRoom := maxFee.isLt
      omega
  | @priced _ _ maxFee hMax =>
    cases g with
    | overflowed hOut =>
      have hRoom := maxFee.isLt
      omega
    | priced hMax' => rw [BitVec.eq_of_toNat_eq (hMax.trans hMax'.symm)]

theorem Comes.unique (h : Comes estimate baseFee priorityFee result)
    (g : Comes estimate baseFee priorityFee result') : result = result' := by
  cases h with
  | overflowed hOut =>
    cases g with
    | overflowed _ => rfl
    | limited hLimit _ =>
      cases hLimit with
      | estimated hRoom _ => omega
  | limited hLimit hFees =>
    cases g with
    | overflowed hOut =>
      cases hLimit with
      | estimated hRoom _ => omega
    | limited hLimit' hFees' =>
      obtain rfl := hLimit.unique hLimit'
      exact hFees.unique hFees'

/-- The offered fee holds the priority fee. -/
theorem Comes.priorityFee_le {pricing : Pricing}
    (h : Comes estimate baseFee priorityFee (.ok pricing)) :
    pricing.priorityFee.toNat ≤ pricing.maxFee.toNat := by
  cases h with
  | limited _ hFees =>
    cases hFees with
    | @priced base priority maxFee hMax =>
      show priority.toNat ≤ maxFee.toNat
      omega

/-- A failed estimate does not keep a price from being found. -/
theorem Comes.priced_iff {f : Failure} (h : Comes (.failure f) baseFee priorityFee result) :
    (∃ pricing, result = .ok pricing) ↔
      ∃ base priority, baseFee = .value (some base) ∧ priorityFee = .value priority ∧
        2 * base.toNat + priority.toNat < 2 ^ 256 := by
  constructor
  · rintro ⟨pricing, rfl⟩
    cases h with
    | limited _ hFees =>
      cases hFees with
      | @priced base priority maxFee hMax => exact ⟨base, priority, rfl, rfl, hMax ▸ maxFee.isLt⟩
  · rintro ⟨base, priority, rfl, rfl, hRoom⟩
    cases h with
    | limited _ hFees =>
      cases hFees with
      | overflowed hOut => omega
      | priced _ => exact ⟨_, rfl⟩

end Outcomes

/-! ## What is done with them -/

theorem gasLimitOf_cases {estimate : Answer Word256} (h : ∀ f, estimate ≠ .fault f)
    (w : World σ) :
    (∃ limit v, Limits estimate limit ∧
        (gasLimitOf estimate : Act σ Word256).Returns w limit v) ∨
      ∃ e, estimate = .value e ∧ 2 ^ 256 ≤ 120 * e.toNat + 99 ∧
        (gasLimitOf estimate : Act σ Word256).Stops w (.fault .wideOverflow) w := by
  cases estimate with
  | value e =>
    by_cases hRoom : 120 * e.toNat + 99 < 2 ^ 256
    · left
      obtain ⟨limit, hLimit, hLeast⟩ := bufferedGasLimit_of_lt hRoom
      exact ⟨limit, w, .estimated hRoom hLeast, Act.returns_ofFault.mpr ⟨hLimit, rfl⟩⟩
    · right
      have hOut : 2 ^ 256 ≤ 120 * e.toNat + 99 := Nat.not_lt.mp hRoom
      exact ⟨e, rfl, hOut, Act.stops_ofFault.mpr ⟨_, bufferedGasLimit_of_le hOut, rfl, rfl⟩⟩
  | failure f => exact .inl ⟨_, _, .fallback, rfl⟩
  | fault f => exact absurd rfl (h f)

theorem offers_offer (limit : Word256) {baseFee : Answer (Option Word256)}
    {priorityFee : Answer Word256} (hBase : ∀ f, baseFee ≠ .fault f)
    (hPriority : ∀ f, priorityFee ≠ .fault f) (w : World σ) :
    Offers limit baseFee priorityFee (offer limit baseFee priorityFee w).1 := by
  cases baseFee with
  | fault f => exact absurd rfl (hBase f)
  | failure f => exact .baseFeeFailed
  | value fee =>
    cases fee with
    | none => exact .noBaseFee
    | some base =>
      cases priorityFee with
      | fault f => exact absurd rfl (hPriority f)
      | failure f => exact .priorityFeeFailed
      | value priority =>
        show Offers limit _ _ ((Act.ofFault (offeredFee base priority) >>= fun maxFee => _) w).1
        rw [Act.bind_apply, offeredFee_eq]
        cases hFee : fit 256 .wideOverflow (2 * base.toNat + priority.toNat) with
        | error f =>
          obtain ⟨hOut, rfl⟩ := fit_eq_error_iff.mp hFee
          exact .overflowed hOut
        | ok maxFee => exact .priced (fit_eq_ok_iff.mp hFee)

theorem comes_ofAnswers {estimate : Answer Word256} {baseFee : Answer (Option Word256)}
    {priorityFee : Answer Word256} (hGas : ∀ f, estimate ≠ .fault f)
    (hBase : ∀ f, baseFee ≠ .fault f) (hPriority : ∀ f, priorityFee ≠ .fault f) (w : World σ) :
    Comes estimate baseFee priorityFee (ofAnswers (estimate, baseFee, priorityFee) w).1 := by
  rw [ofAnswers_eq, Act.bind_apply]
  rcases gasLimitOf_cases hGas w with ⟨limit, v, hLimit, hReturns⟩ | ⟨e, rfl, hOut, hStops⟩
  · rw [show gasLimitOf estimate w = (.ok limit, v) from hReturns]
    exact .limited hLimit (offers_offer limit hBase hPriority v)
  · rw [show gasLimitOf (.value e) w = (.error (.fault .wideOverflow), w) from hStops]
    exact .overflowed hOut

end Pricing

/-- The notice warns that the fallback gas limit is used. -/
def Notice.isFallback : Notice → Bool
  | .estimateFailed _ => true
  | _ => false

namespace Pricing

/-- The warnings that an estimate calls for. -/
def fallbackWarnings : Answer Word256 → List Notice
  | .failure f => [.estimateFailed f]
  | _ => []

theorem warnings_ofAnswers (answers : Answer Word256 × Answer (Option Word256) × Answer Word256)
    (w : World σ) :
    (ofAnswers answers w).2.notices.filter Notice.isFallback =
      w.notices.filter Notice.isFallback ++ fallbackWarnings answers.1 := by
  obtain ⟨estimate, baseFee, priorityFee⟩ := answers
  have hGas : (gasLimitOf estimate w).2.notices.filter Notice.isFallback =
      w.notices.filter Notice.isFallback ++ fallbackWarnings estimate := by
    cases estimate with
    | value e =>
      have hKeeps : Act.Keeps id (gasLimitOf (.value e) : Act σ Word256) := Act.keeps_ofFault _
      rw [show (gasLimitOf (.value e) w).2 = w from hKeeps w]
      exact (List.append_nil _).symm
    | failure f =>
      show (w.notices ++ [Notice.estimateFailed f]).filter Notice.isFallback = _
      rw [List.filter_append]
      rfl
    | fault f => exact (List.append_nil _).symm
  rw [← hGas]
  have hPriced : ∀ fee pricing, Act.Keeps (fun w => w.notices.filter Notice.isFallback)
      (Act.notice (.priced fee pricing) : Act σ Unit) := by
    intro fee pricing v
    show (v.notices ++ [Notice.priced fee pricing]).filter Notice.isFallback = _
    rw [List.filter_append]
    exact List.append_nil _
  exact Act.view_bind (fun limit => keeps_offer hPriced limit baseFee priorityFee) w

end Pricing

/-- Every read is answered with a value or a failure. -/
structure FeeReplies.Answered (r : FeeReplies) : Prop where
  gas : ∀ f, r.gas.answer ≠ .fault f
  baseFee : ∀ f, r.baseFee.answer ≠ .fault f
  priorityFee : ∀ f, r.priorityFee.answer ≠ .fault f

theorem Reply.fault?_eq_none_iff {α : Type} {r : Reply α} :
    r.fault? = none ↔ ∀ f, r.answer ≠ .fault f := by
  unfold fault?
  cases r.answer <;> simp

namespace FeeReplies

theorem answered_iff {r : FeeReplies} : r.Answered ↔ r.firstFault? = none := by
  constructor
  · rintro ⟨hGas, hBase, hPriority⟩
    have hFaults : r.faults = [] := by
      unfold faults
      rw [Reply.fault?_eq_none_iff.mpr hGas, Reply.fault?_eq_none_iff.mpr hBase,
        Reply.fault?_eq_none_iff.mpr hPriority]
      rfl
    unfold firstFault?
    rw [hFaults]
    rfl
  · intro h
    have hFaults := faults_eq_nil_of_firstFault?_eq_none h
    simp only [faults, List.append_eq_nil_iff, List.map_eq_nil_iff, Option.toList_eq_nil_iff,
      Reply.fault?_eq_none_iff] at hFaults
    exact ⟨hFaults.1.1, hFaults.1.2, hFaults.2⟩

theorem Answered.answers_eq {r : FeeReplies} (h : r.Answered) :
    r.answers = .ok (r.gas.answer, r.baseFee.answer, r.priorityFee.answer) := by
  unfold answers
  rw [answered_iff.mp h]

end FeeReplies

/-- Reads that are all answered are all made, and waited for together. -/
theorem Act.askFees_of_answered {network : Network σ} {probe : CallObject} {w : World σ}
    (hOpen : w.cutOff = none) {replies : FeeReplies}
    (hReplies : (network.fees probe w.network).1 = replies) (hAnswered : replies.Answered) :
    askFees network probe w =
      (.ok (replies.gas.answer, replies.baseFee.answer, replies.priorityFee.answer),
        { w with
          network := (network.fees probe w.network).2
          now := w.now.plus replies.elapsed
          calls := w.calls ++ (feeCalls probe).map fun call => (w.now, call) }) := by
  have hSpan : replies.span = replies.elapsed := by
    unfold FeeReplies.span
    rw [FeeReplies.answered_iff.mp hAnswered]
  rw [askFees_apply network probe hOpen, hReplies, hAnswered.answers_eq, hSpan,
    FeeReplies.started_of_firstFault?_eq_none (FeeReplies.answered_iff.mp hAnswered)]

/-- Reads that return were all answered. -/
theorem Act.answered_of_returns_askFees {network : Network σ} {probe : CallObject}
    {w w' : World σ} {replies : FeeReplies} (hReplies : (network.fees probe w.network).1 = replies)
    {answers : Answer Word256 × Answer (Option Word256) × Answer Word256}
    (h : (askFees network probe).Returns w answers w') :
    replies.Answered ∧
      answers = (replies.gas.answer, replies.baseFee.answer, replies.priorityFee.answer) ∧
      w' =
        { w with
          network := (network.fees probe w.network).2
          now := w.now.plus replies.elapsed
          calls := w.calls ++ (feeCalls probe).map fun call => (w.now, call) } := by
  obtain ⟨_, v, hStep, h⟩ := returns_bind.mp h
  obtain ⟨rfl, rfl⟩ := returns_step.mp hStep
  obtain ⟨_, u, hLogged, h⟩ := returns_bind.mp h
  obtain rfl := returns_logCalls.mp hLogged
  subst hReplies
  cases hFault : (network.fees probe w.network).1.firstFault? with
  | some first =>
    rw [hFault] at h
    obtain ⟨_, _, _, hThrow⟩ := returns_bind.mp h
    exact absurd hThrow not_returns_throw
  | none =>
    rw [hFault] at h
    obtain ⟨_, t, hWait, h⟩ := returns_bind.mp h
    obtain rfl := later_of_returns_sleep hWait
    obtain ⟨rfl, rfl⟩ := returns_pure.mp h
    rw [FeeReplies.started_of_firstFault?_eq_none hFault]
    exact ⟨FeeReplies.answered_iff.mpr hFault, rfl, rfl⟩

namespace Pricing

/-- Where no read ends with a fault, the price, or what it fails with, is the one thing that the
answers come to. Each read is made once. A failed estimate leaves a price to be found from the fees
alone, and it alone is warned of and counted. -/
theorem obtain_comes (network : Network σ) (sender recipient : Address) (amount : Word256)
    {w : World σ} (hOpen : w.cutOff = none) {replies : FeeReplies}
    (hReplies : (network.fees (probe sender recipient amount) w.network).1 = replies)
    (hAnswered : replies.Answered) :
    ∃ result w', obtain network sender recipient amount w = (result, w') ∧
      (∀ outcome, Comes replies.gas.answer replies.baseFee.answer replies.priorityFee.answer
        outcome ↔ outcome = result) ∧
      (∀ pricing, result = .ok pricing → pricing.priorityFee.toNat ≤ pricing.maxFee.toNat) ∧
      (∀ f, replies.gas.answer = .failure f → ((∃ pricing, result = .ok pricing) ↔
        ∃ base priority, replies.baseFee.answer = .value (some base) ∧
          replies.priorityFee.answer = .value priority ∧
          2 * base.toNat + priority.toNat < 2 ^ 256)) ∧
      w'.calls = w.calls ++ (feeCalls (probe sender recipient amount)).map
        (fun call => (w.now, call)) ∧
      w'.notices.filter Notice.isFallback =
        w.notices.filter Notice.isFallback ++ fallbackWarnings replies.gas.answer ∧
      w'.tally.fallbacks = w.tally.fallbacks + replies.gas.answer.isFailure.toNat := by
  have hAsked := Act.askFees_of_answered hOpen hReplies hAnswered
  have hObtain : obtain network sender recipient amount w =
      ofAnswers (replies.gas.answer, replies.baseFee.answer, replies.priorityFee.answer)
        (Act.askFees network (probe sender recipient amount) w).2 := by
    rw [obtain_eq, Act.bind_apply, hAsked]
  have hComes := comes_ofAnswers hAnswered.gas hAnswered.baseFee hAnswered.priorityFee
    (Act.askFees network (probe sender recipient amount) w).2
  rw [← hObtain] at hComes
  refine ⟨(obtain network sender recipient amount w).1,
    (obtain network sender recipient amount w).2, rfl, ?_, ?_, ?_, ?_, ?_, ?_⟩
  · intro outcome
    constructor
    · intro h
      exact h.unique hComes
    · rintro rfl
      exact hComes
  · intro pricing hPricing
    rw [hPricing] at hComes
    exact hComes.priorityFee_le
  · intro f hFailed
    rw [hFailed] at hComes
    exact hComes.priced_iff
  · have hCalls := view_obtain World.calls (fun _ _ => rfl) (fun _ _ _ => rfl) (fun _ => rfl)
      network sender recipient amount w
    rw [hCalls, hAsked]
  · rw [hObtain, warnings_ofAnswers, hAsked]
  · rw [hObtain, tally_ofAnswers, hAsked]
    dsimp only
    cases replies.gas.answer <;> rfl

/-- An endpoint whose answers are the highest that make a price. -/
def brimful : Network Unit where
  genesisTime _ s := (.now (.value 0), s)
  chainId s := (.now (.value 1), s)
  fees _ s := (⟨⟨.ofSecs 2, .value (BitVec.ofNat 256 ((2 ^ 256 - 100) / 120))⟩,
    ⟨.ofSecs 1, .value (some (BitVec.ofNat 256 (2 ^ 255 - 1)))⟩, .now (.value 1)⟩, s)
  pendingCount _ s := (.now (.value 0), s)
  submit _ s := (none, s)
  acknowledge _ s := s

/-- There, the fee that is offered is the highest word. -/
theorem brimful_priced :
    ({ network := () } : World Unit).cutOff = none ∧
      (brimful.fees (probe ⟨1⟩ ⟨2⟩ 3) ()).1.Answered ∧
      ∃ pricing w', obtain brimful ⟨1⟩ ⟨2⟩ 3 { network := () } = (.ok pricing, w') ∧
        pricing.maxFee = BitVec.allOnes 256 ∧ pricing.priorityFee = 1 ∧
        IsLeast {n | 6 * ((2 ^ 256 - 100) / 120) ≤ 5 * n} pricing.gasLimit.toNat ∧
        w'.calls.length = 3 ∧ w'.tally.fallbacks = 0 := by
  have hAnswered : (brimful.fees (probe ⟨1⟩ ⟨2⟩ 3) ()).1.Answered := ⟨nofun, nofun, nofun⟩
  obtain ⟨result, w', hObtain, hComes, _, _, hCalls, _, hFallbacks⟩ :=
    obtain_comes brimful ⟨1⟩ ⟨2⟩ 3 (w := { network := () }) rfl rfl hAnswered
  have hRoom : 120 * (BitVec.ofNat 256 ((2 ^ 256 - 100) / 120)).toNat + 99 < 2 ^ 256 := by
    decide +kernel
  obtain ⟨limit, _, hLeast⟩ := bufferedGasLimit_of_lt hRoom
  have hPriced : Offers limit (.value (some (BitVec.ofNat 256 (2 ^ 255 - 1)))) (.value 1)
      (.ok ⟨limit, BitVec.allOnes 256, 1⟩) := .priced (by decide +kernel)
  have hOk := (hComes _).mp (.limited (.estimated hRoom hLeast) hPriced)
  subst hOk
  refine ⟨rfl, hAnswered, _, w', hObtain, rfl, rfl, ?_, ?_, hFallbacks⟩
  · exact hLeast
  · rw [hCalls]
    rfl

end Pricing

end TxLoad

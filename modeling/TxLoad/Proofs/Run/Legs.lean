import TxLoad.Proofs.Run.Preparation
import TxLoad.Proofs.Run.Submission
import TxLoad.Run.Course

/-! # The legs of a run

A run sends its transfers leg by leg: a batch is prepared and then submitted, and a pause follows if
transfers remain. `Legs` is the course of a run over its legs, and `sendRemaining_legs` says that
every run has one: a submission never ends a run, so the legs go on until nothing is left or a
preparation stops. The rest of the file adds up what the legs send, call and take.
-/

namespace TxLoad

variable {σ : Type}

/-! ## Sizes -/

/-- In how many batches of at most `size` a number of transfers is sent. -/
def batchCount (count size : Nat) : Nat := (count + size - 1) / size

/-- The sizes of these batches: all are full but the last, which has the rest. -/
def batchSizes (count size : Nat) : List Nat :=
  List.replicate (batchCount count size - 1) size ++ [count - size * (batchCount count size - 1)]

theorem batchCount_zero {size : Nat} (hSize : 0 < size) : batchCount 0 size = 0 :=
  Nat.div_eq_of_lt (by omega)

theorem batchCount_of_pos (count size : Nat) (hCount : 0 < count) (hSize : 0 < size) :
    batchCount count size = batchCount (count - size) size + 1 := by
  unfold batchCount
  by_cases hFull : size ≤ count
  · have hEq : count + size - 1 = count - size + size - 1 + size := by omega
    rw [hEq, Nat.add_div_right _ hSize]
  · have hOne : count + size - 1 = count - 1 + size := by omega
    have hRest : count - size + size - 1 = size - 1 := by omega
    rw [hOne, hRest, Nat.add_div_right _ hSize, Nat.div_eq_of_lt (by omega),
      Nat.div_eq_of_lt (by omega)]

theorem batchSizes_last {count size : Nat} (hCount : 0 < count) (hLast : count ≤ size) :
    batchSizes count size = [count] := by
  have hOne : batchCount count size = 1 := by
    rw [batchCount_of_pos count size hCount (by omega), Nat.sub_eq_zero_of_le hLast,
      batchCount_zero (by omega)]
  unfold batchSizes
  rw [hOne]
  rfl

theorem batchSizes_full (count size : Nat) (hSize : 0 < size) (hMore : size < count) :
    batchSizes count size = size :: batchSizes (count - size) size := by
  have hRest := batchCount_of_pos (count - size) size (by omega) hSize
  have hAll := batchCount_of_pos count size (by omega) hSize
  obtain ⟨k, hk⟩ : ∃ k, batchCount (count - size) size = k + 1 := ⟨_, hRest⟩
  unfold batchSizes
  rw [hAll, hk, Nat.add_sub_cancel, Nat.add_sub_cancel, List.replicate_succ, List.cons_append,
    Nat.mul_succ, Nat.add_comm (size * k), Nat.sub_add_eq]

/-! ## Legs -/

theorem Totals.zero_add (t : Totals) : Totals.add {} t = t := by
  unfold add
  simp only [Nat.zero_add]

theorem Totals.add_assoc (t u v : Totals) : (t.add u).add v = t.add (u.add v) := by
  unfold add
  simp only [Nat.add_assoc]

/-- What all transfers of a run have in common. -/
def Plan.terms (p : Plan) (chainId : Word64) : TransferTerms := ⟨p.recipient, p.amount, chainId⟩

/-- The preparation of the next batch when some transfers remain. -/
def Plan.preparation (network : Network σ) (p : Plan) (chainId : Word64) (remaining : Nat) :
    Act σ Batch :=
  Batch.prepare network p.account (p.terms chainId)
    (BitVec.ofNat 64 (min remaining p.batchSize.toNat))

/-- The world after the pause between two batches, which is left out after the last. -/
def Plan.rested (p : Plan) (remaining : Nat) (w : World σ) : World σ :=
  if remaining = 0 then w else w.later p.pause

/-- One batch of a run: its preparation begins in `start`, its submission in `ready`, and it is
settled in `finish`. -/
structure Leg (σ : Type) where
  batch : Batch
  report : BatchReport
  start : World σ
  ready : World σ
  finish : World σ

namespace Leg

def size (leg : Leg σ) : Nat := leg.batch.size

@[simp] theorem size_mk {batch : Batch} {report : BatchReport} {start ready finish : World σ} :
    (⟨batch, report, start, ready, finish⟩ : Leg σ).size = batch.size := rfl

def calls (p : Plan) (chainId : Word64) (leg : Leg σ) : List Call :=
  Batch.preparationCalls p.account (p.terms chainId) ++ submissionCalls leg.batch.transfers

/-- How long the leg takes. -/
def span (leg : Leg σ) : Nat := leg.finish.now.nanos - leg.start.now.nanos

def totals (legs : List (Leg σ)) : Totals where
  batches := legs.length
  sent := (legs.map fun leg => leg.report.sent).sum
  failed := (legs.map fun leg => leg.report.failed).sum

theorem totals_cons (leg : Leg σ) (legs : List (Leg σ)) :
    totals (leg :: legs) = (Totals.ofReport leg.report).add (totals legs) := by
  unfold totals Totals.ofReport Totals.add
  rw [List.length_cons, List.map_cons, List.sum_cons, List.map_cons, List.sum_cons, Nat.add_comm]

end Leg

/-- A run that has `remaining` transfers to send in the first world carries out the legs one after
the other; then it has `left` to send in the last world. -/
inductive Legs (network : Network σ) (p : Plan) (chainId : Word64) :
    (remaining : Nat) → World σ → List (Leg σ) → (left : Nat) → World σ → Prop
  | nil (remaining : Nat) (w : World σ) : Legs network p chainId remaining w [] remaining w
  | cons {remaining left : Nat} {batch : Batch} {report : BatchReport}
      {start ready finish w' : World σ} {legs : List (Leg σ)} (hSome : remaining ≠ 0)
      (hPrepare : (p.preparation network chainId remaining).Returns start batch ready)
      (hSubmit : (batch.submit network p.submitLimit).Returns ready report finish)
      (hLegs : Legs network p chainId (remaining - p.batchSize.toNat)
        (p.rested (remaining - p.batchSize.toNat) finish) legs left w') :
      Legs network p chainId remaining start (⟨batch, report, start, ready, finish⟩ :: legs) left w'

namespace Plan

theorem rested_grows (p : Plan) (remaining : Nat) (w : World σ) :
    w.Grows [] (p.rested remaining w) := by
  unfold rested
  split
  · exact .refl w
  · exact .silent rfl rfl (Nat.le_add_right _ _)

theorem rested_open {p : Plan} {remaining : Nat} {w : World σ} (hOpen : w.cutOff = none) :
    (p.rested remaining w).cutOff = none := (rested_grows p remaining w).isOpen hOpen

theorem returns_rest (p : Plan) (remaining : Nat) {w : World σ} (hOpen : w.cutOff = none) :
    (p.rest remaining : Act σ Unit).Returns w () (p.rested remaining w) := by
  unfold rest rested
  by_cases hLast : remaining = 0
  · rw [if_pos hLast, hLast]
    exact Act.returns_pure.mpr ⟨rfl, rfl⟩
  · rw [if_neg hLast]
    by_cases hPause : p.pause.nanos = 0
    · -- a pause of no length is the same as none
      have hLater : w.later p.pause = w := by
        unfold World.later Duration.plus
        rw [hPause]
        rfl
      rw [hLater]
      simp [hPause]
    · have hBoth : (decide (remaining ≠ 0) && decide (p.pause.nanos ≠ 0)) = true := by
        simp [hLast, hPause]
      rw [if_pos hBoth]
      exact (Act.returns_sleep hOpen).mpr rfl

theorem sendRemaining_zero (network : Network σ) (p : Plan) (chainId : Word64) (totals : Totals) :
    sendRemaining network p chainId 0 totals = pure totals := by
  rw [sendRemaining, if_pos rfl]

theorem sendRemaining_of_ne_zero (network : Network σ) (p : Plan) (chainId : Word64)
    {remaining : Nat} (totals : Totals) (hSome : remaining ≠ 0) (hSize : p.batchSize ≠ 0) :
    sendRemaining network p chainId remaining totals = (do
      let batch ← p.preparation network chainId remaining
      let report ← batch.submit network p.submitLimit
      p.rest (remaining - p.batchSize.toNat)
      sendRemaining network p chainId (remaining - p.batchSize.toNat)
        (totals.add (.ofReport report))) := by
  have hPos : p.batchSize.toNat ≠ 0 := Word64.toNat_ne_zero hSize
  have hLeft : remaining - max (min remaining p.batchSize.toNat) 1 =
      remaining - p.batchSize.toNat := by omega
  rw [sendRemaining, if_neg hSome]
  simp only [hLeft]
  rfl

theorem size_of_returns_preparation {network : Network σ} {p : Plan} {chainId : Word64}
    {remaining : Nat} {w w' : World σ} {batch : Batch}
    (h : (p.preparation network chainId remaining).Returns w batch w') :
    batch.size = min remaining p.batchSize.toNat := by
  have hFits : min remaining p.batchSize.toNat < 2 ^ 64 :=
    Nat.lt_of_le_of_lt (Nat.min_le_right _ _) p.batchSize.isLt
  rw [(Batch.returns_prepare h).2, BitVec.toNat_ofNat, Nat.mod_eq_of_lt hFits]

/-- A batch is reported in full, and has made its calls and no others. -/
theorem leg_spec {network : Network σ} {p : Plan} {chainId : Word64} {remaining : Nat}
    {start ready finish : World σ} {batch : Batch} {report : BatchReport}
    (hPrepare : (p.preparation network chainId remaining).Returns start batch ready)
    (hSubmit : (batch.submit network p.submitLimit).Returns ready report finish)
    (hOpen : start.cutOff = none) :
    report.sent + report.failed = batch.size ∧ ∃ made, start.Grows made finish ∧
      made.map Prod.snd =
        Batch.preparationCalls p.account (p.terms chainId) ++ submissionCalls batch.transfers := by
  have hPreparation := Batch.makes_prepare network p.account (p.terms chainId)
    (BitVec.ofNat 64 (min remaining p.batchSize.toNat)) hOpen
  obtain ⟨prepared, hPrepared, hReads⟩ := hPreparation.all hPrepare
  obtain ⟨_, _, hReturns, hLength, hSubmitted, _⟩ :=
    Batch.returns_submit network p.submitLimit batch (hPrepared.isOpen hOpen)
  obtain ⟨rfl, rfl⟩ := hSubmit.unique hReturns
  refine ⟨report.sent_add_failed.trans hLength, _, hPrepared.trans hSubmitted, ?_⟩
  rw [List.map_append, hReads, List.map_map]
  exact congrArg (_ ++ ·) (List.map_id _)

/-- A run carries out legs until nothing is left or a preparation stops it. -/
theorem sendRemaining_legs (network : Network σ) (p : Plan) (chainId : Word64) (remaining : Nat)
    (totals : Totals) (w : World σ) (hSize : p.batchSize ≠ 0) (hOpen : w.cutOff = none) :
    (∃ legs w', Legs network p chainId remaining w legs 0 w' ∧
      (sendRemaining network p chainId remaining totals).Returns w
        (totals.add (Leg.totals legs)) w') ∨
    ∃ legs left v s w', Legs network p chainId remaining w legs left v ∧ left ≠ 0 ∧
      (p.preparation network chainId left).Stops v s w' ∧
      (sendRemaining network p chainId remaining totals).Stops w s w' := by
  induction remaining using Nat.strongRecOn generalizing totals w with
  | ind remaining ih =>
    by_cases hSome : remaining = 0
    · subst hSome
      refine .inl ⟨[], w, .nil 0 w, ?_⟩
      rw [sendRemaining_zero]
      exact Act.returns_pure.mpr ⟨rfl, rfl⟩
    have hPos : p.batchSize.toNat ≠ 0 := Word64.toNat_ne_zero hSize
    rw [sendRemaining_of_ne_zero network p chainId totals hSome hSize]
    have hPreparation := Batch.makes_prepare network p.account (p.terms chainId)
      (BitVec.ofNat 64 (min remaining p.batchSize.toNat)) hOpen
    rcases (p.preparation network chainId remaining).returns_or_stops w with
      ⟨batch, ready, hPrepare⟩ | ⟨s, w', hStops⟩
    · have hReady : ready.cutOff = none := hPreparation.all_open hOpen hPrepare
      obtain ⟨report, finish, hSubmit, _, hGrows, _⟩ :=
        Batch.returns_submit network p.submitLimit batch hReady
      have hFinish := hGrows.isOpen hReady
      have hRest := returns_rest p (remaining - p.batchSize.toNat) hFinish
      have hNext := ih (remaining - p.batchSize.toNat) (by omega) (totals.add (.ofReport report))
        (p.rested (remaining - p.batchSize.toNat) finish) (rested_open hFinish)
      rcases hNext with ⟨legs, w', hLegs, hSent⟩ |
        ⟨legs, left, v, s, w', hLegs, hLeft, hStops, hSent⟩
      · refine .inl ⟨⟨batch, report, w, ready, finish⟩ :: legs, w',
          .cons hSome hPrepare hSubmit hLegs, ?_⟩
        refine Act.returns_bind.mpr ⟨batch, ready, hPrepare, ?_⟩
        refine Act.returns_bind.mpr ⟨report, finish, hSubmit, ?_⟩
        refine Act.returns_bind.mpr ⟨(), _, hRest, ?_⟩
        rw [Leg.totals_cons]
        rw [Totals.add_assoc] at hSent
        exact hSent
      · refine .inr ⟨⟨batch, report, w, ready, finish⟩ :: legs, left, v, s, w',
          .cons hSome hPrepare hSubmit hLegs, hLeft, hStops, ?_⟩
        refine Act.stops_bind.mpr (.inr ⟨batch, ready, hPrepare, ?_⟩)
        refine Act.stops_bind.mpr (.inr ⟨report, finish, hSubmit, ?_⟩)
        exact Act.stops_bind.mpr (.inr ⟨(), _, hRest, hSent⟩)
    · exact .inr ⟨[], remaining, w, s, w', .nil remaining w, hSome, hStops,
        Act.stops_bind.mpr (.inl hStops)⟩

end Plan

/-! ## What the legs of a run add up to -/

namespace Legs

variable {network : Network σ} {p : Plan} {chainId : Word64} {remaining left : Nat}
  {w w' : World σ} {legs : List (Leg σ)}

theorem sum_sizes (h : Legs network p chainId remaining w legs left w') :
    (legs.map Leg.size).sum + left = remaining := by
  induction h with
  | nil => exact Nat.zero_add _
  | cons hSome hPrepare hSubmit hLegs ih =>
    rw [List.map_cons, List.sum_cons, Leg.size_mk, Plan.size_of_returns_preparation hPrepare]
    omega

/-- As long as transfers are left, all batches have been full. -/
theorem sizes_of_left (h : Legs network p chainId remaining w legs left w') (hLeft : left ≠ 0) :
    legs.map Leg.size = List.replicate legs.length p.batchSize.toNat := by
  induction h with
  | nil => rfl
  | cons hSome hPrepare hSubmit hLegs ih =>
    have hMore := hLegs.sum_sizes
    rw [List.map_cons, Leg.size_mk, Plan.size_of_returns_preparation hPrepare, ih hLeft,
      Nat.min_eq_right (by omega), List.length_cons, List.replicate_succ]

theorem length_of_left (h : Legs network p chainId remaining w legs left w') (hLeft : left ≠ 0) :
    p.batchSize.toNat * legs.length + left = remaining := by
  have hSum := h.sum_sizes
  rwa [h.sizes_of_left hLeft, List.sum_replicate_nat, Nat.mul_comm] at hSum

theorem length_lt_batchCount (h : Legs network p chainId remaining w legs left w')
    (hSize : p.batchSize ≠ 0) (hLeft : left ≠ 0) :
    legs.length < batchCount remaining p.batchSize.toNat := by
  have hLength := h.length_of_left hLeft
  have hPos : p.batchSize.toNat ≠ 0 := Word64.toNat_ne_zero hSize
  refine (Nat.le_div_iff_mul_le (by omega)).mpr ?_
  rw [Nat.succ_mul, Nat.mul_comm]
  omega

theorem length_of_done (h : Legs network p chainId remaining w legs left w')
    (hSize : p.batchSize ≠ 0) (hDone : left = 0) :
    legs.length = batchCount remaining p.batchSize.toNat := by
  have hPos : p.batchSize.toNat ≠ 0 := Word64.toNat_ne_zero hSize
  induction h with
  | nil =>
    rw [hDone, batchCount_zero (by omega)]
    rfl
  | cons hSome hPrepare hSubmit hLegs ih =>
    rw [List.length_cons, ih hDone, ← batchCount_of_pos _ _ (by omega) (by omega)]

/-- Once nothing is left, the last batch has had the rest. -/
theorem sizes_of_done (h : Legs network p chainId remaining w legs left w')
    (hSize : p.batchSize ≠ 0) (hDone : left = 0) (hSome : remaining ≠ 0) :
    legs.map Leg.size = batchSizes remaining p.batchSize.toNat := by
  have hPos : p.batchSize.toNat ≠ 0 := Word64.toNat_ne_zero hSize
  induction h with
  | nil => exact absurd hDone hSome
  | @cons remaining _ _ _ _ _ _ _ _ _ hPrepare _ hLegs ih =>
    rw [List.map_cons, Leg.size_mk, Plan.size_of_returns_preparation hPrepare]
    by_cases hMore : remaining - p.batchSize.toNat = 0
    · have hNone : List.map Leg.size _ = [] :=
        List.map_eq_nil_iff.mpr (List.eq_nil_of_length_eq_zero (by
          rw [hLegs.length_of_done hSize hDone, hMore, batchCount_zero (by omega)]))
      rw [hNone, batchSizes_last (by omega) (by omega), Nat.min_eq_left (by omega)]
    · rw [batchSizes_full remaining _ (by omega) (by omega), ih hDone hMore,
        Nat.min_eq_right (by omega)]

/-- What was sent and what failed are together what was submitted. -/
theorem sum_reports (h : Legs network p chainId remaining w legs left w')
    (hOpen : w.cutOff = none) :
    (Leg.totals legs).sent + (Leg.totals legs).failed = (legs.map Leg.size).sum := by
  induction h with
  | nil => rfl
  | @cons remaining _ batch report start ready finish _ legs _ hPrepare hSubmit hLegs ih =>
    obtain ⟨hReport, _, hGrows, _⟩ := Plan.leg_spec hPrepare hSubmit hOpen
    have hRest := ih (Plan.rested_open (hGrows.isOpen hOpen))
    rw [Leg.totals_cons, List.map_cons, List.sum_cons, Leg.size_mk, ← hRest, ← hReport]
    show (report.sent + (Leg.totals legs).sent) + (report.failed + (Leg.totals legs).failed) = _
    omega

/-- The legs make their calls and no others. -/
theorem grows (h : Legs network p chainId remaining w legs left w') (hOpen : w.cutOff = none) :
    ∃ made, w.Grows made w' ∧ made.map Prod.snd = legs.flatMap (Leg.calls p chainId) := by
  induction h with
  | nil remaining w => exact ⟨[], .refl w, rfl⟩
  | @cons remaining _ batch report start ready finish w' legs _ hPrepare hSubmit hLegs ih =>
    obtain ⟨_, made, hGrows, hCalls⟩ := Plan.leg_spec hPrepare hSubmit hOpen
    have hFinish := hGrows.isOpen hOpen
    obtain ⟨more, hMore, hRest⟩ := ih (Plan.rested_open hFinish)
    have hPause := Plan.rested_grows p (remaining - p.batchSize.toNat) finish
    refine ⟨made ++ [] ++ more, (hGrows.trans hPause).trans hMore, ?_⟩
    rw [List.append_nil, List.map_append, hCalls, hRest]
    rfl

/-- A run that is done has taken the time of its legs and of the pauses between them. -/
theorem now_of_done (h : Legs network p chainId remaining w legs left w')
    (hSize : p.batchSize ≠ 0) (hOpen : w.cutOff = none) (hDone : left = 0) :
    w'.now.nanos =
      w.now.nanos + (legs.map Leg.span).sum + (legs.length - 1) * p.pause.nanos := by
  have hPos : p.batchSize.toNat ≠ 0 := Word64.toNat_ne_zero hSize
  induction h with
  | nil => simp
  | @cons remaining _ batch report start ready finish w' legs hSome hPrepare hSubmit hLegs ih =>
    obtain ⟨_, _, hGrows, _⟩ := Plan.leg_spec hPrepare hSubmit hOpen
    have hSpan : start.now.nanos + Leg.span ⟨batch, report, start, ready, finish⟩ =
        finish.now.nanos := Nat.add_sub_cancel' hGrows.now_le
    have hLength := hLegs.length_of_done hSize hDone
    rw [ih (Plan.rested_open (hGrows.isOpen hOpen)) hDone, List.map_cons, List.sum_cons,
      List.length_cons, Nat.add_sub_cancel]
    unfold Plan.rested
    by_cases hLast : remaining - p.batchSize.toNat = 0
    · rw [hLast, batchCount_zero (by omega)] at hLength
      rw [if_pos hLast, hLength]
      omega
    · have hMore := batchCount_of_pos (remaining - p.batchSize.toNat) p.batchSize.toNat
        (by omega) (by omega)
      obtain ⟨k, hk⟩ : ∃ k, legs.length = k + 1 := ⟨_, hLength.trans hMore⟩
      rw [if_neg hLast, hk, Nat.add_sub_cancel, Nat.succ_mul]
      show finish.now.nanos + p.pause.nanos + _ + _ = _
      omega

end Legs

end TxLoad

import Mathlib.Algebra.GroupWithZero.Nat
import Mathlib.Order.Bounds.Defs
import TxLoad.SlotTime

/-! # The next start of a slot

The starts of a target's slot lie an epoch apart, the first one in the epoch that begins with the
genesis. `isLeast_of_waitUntil_eq_ok` says that a wait ends at the first start after the present
moment, to the millisecond; a wait has no length only if that start is so far in the future that the
seconds until then leave the range of a word.
-/

namespace TxLoad.SlotTime

/-- The milliseconds of the start of the target's slot in an epoch. -/
def start (genesis : Nat) (target : BitVec 8) (epoch : Nat) : Nat :=
  1000 * (genesis + 12 * (target.toNat % 32) + 384 * epoch)

/-- The starts of the target's slot after a moment. -/
def startsAfter (moment genesis : Nat) (target : BitVec 8) : Set Nat :=
  {later | moment < later ∧ ∃ epoch, later = start genesis target epoch}

/-- The epoch in which a moment lies, counted from the genesis. -/
def epochOf (genesis moment : Nat) : Nat := (moment - 1000 * genesis) / 384000

theorem epochOf_start (genesis : Nat) (target : BitVec 8) (epoch : Nat) :
    epochOf genesis (start genesis target epoch) = epoch := by
  unfold epochOf start
  omega

theorem start_lt_start_iff {genesis : Nat} {target : BitVec 8} {epoch next : Nat} :
    start genesis target epoch < start genesis target next ↔ epoch < next := by
  unfold start
  omega

/-- Before the first start, that one is the next. -/
theorem isLeast_start_zero {genesis moment : Nat} {target : BitVec 8}
    (h : moment < start genesis target 0) :
    IsLeast (startsAfter moment genesis target) (start genesis target 0) := by
  refine ⟨⟨h, 0, rfl⟩, ?_⟩
  rintro later ⟨_, epoch, rfl⟩
  unfold start
  omega

/-- The signed arithmetic of a wait: it is positive, at most an epoch, and ends at a start. -/
theorem wait_arith {elapsed position wait : Int}
    (hWait : wait = (position - elapsed / 12 % 32) % 32 * 12 - elapsed % 384 % 12) :
    0 < (if wait ≤ 0 then wait + 384 else wait) ∧
      (if wait ≤ 0 then wait + 384 else wait) ≤ 384 ∧
      (elapsed + (if wait ≤ 0 then wait + 384 else wait) - 12 * position) % 384 = 0 := by
  split <;> omega

/-- Before the genesis, the wait ends in the first epoch. -/
theorem secondsUntil_of_lt {now genesis : Word64} (target : BitVec 8)
    (h : now.toNat < genesis.toNat) :
    secondsUntil now genesis target =
      fit 64 .addOverflow (genesis.toNat - now.toNat + 12 * (target.toNat % 32)) := by
  have hDiff : (genesis - now).toNat = genesis.toNat - now.toNat :=
    BitVec.toNat_sub_of_le (Nat.le_of_lt h)
  have hPosition : (BitVec.ofNat 64 (target.toNat % slotsPerEpoch * slotSeconds)).toNat =
      12 * (target.toNat % 32) := by
    unfold slotsPerEpoch slotSeconds
    rw [BitVec.toNat_ofNat]
    omega
  unfold secondsUntil
  rw [if_pos h]
  unfold Word64.plus
  rw [hDiff, hPosition]

/-- From the genesis on, the seconds since then are the same with a sign as without. -/
theorem toInt_elapsed {now genesis : Word64} (h : genesis.toNat ≤ now.toNat)
    (hNow : now.toNat < 2 ^ 63) : (now - genesis).toInt = (now.toNat : Int) - genesis.toNat := by
  have hDiff : (now - genesis).toNat = now.toNat - genesis.toNat := BitVec.toNat_sub_of_le h
  rw [BitVec.toInt_eq_toNat_of_lt (by omega), hDiff]
  omega

/-- From the genesis on, there is always a wait, of at most an epoch. -/
theorem secondsUntil_of_le {now genesis : Word64} (target : BitVec 8)
    (h : genesis.toNat ≤ now.toNat) (hNow : now.toNat < 2 ^ 63) :
    ∃ wait : Word64, secondsUntil now genesis target = .ok wait ∧ 0 < wait.toNat ∧
      wait.toNat ≤ 384 ∧
      ∃ epoch, now.toNat + wait.toNat = genesis.toNat + 12 * (target.toNat % 32) + 384 * epoch := by
  have hElapsed := toInt_elapsed h hNow
  obtain ⟨elapsed, hEq⟩ : ∃ elapsed : Int, elapsed = (now.toNat : Int) - genesis.toNat := ⟨_, rfl⟩
  have hNonneg : 0 ≤ elapsed := by omega
  obtain ⟨raw, hRaw⟩ : ∃ raw : Int, raw = ((target.toNat % 32 : Nat) - elapsed / 12 % 32) % 32 * 12
      - elapsed % 384 % 12 := ⟨_, rfl⟩
  obtain ⟨wait, hWait⟩ : ∃ wait : Int, wait = if raw ≤ 0 then raw + 384 else raw := ⟨_, rfl⟩
  have hSeconds : secondsUntil now genesis target = .ok (BitVec.ofInt 64 wait) := by
    unfold secondsUntil
    rw [if_neg (by omega), hElapsed, ← hEq]
    dsimp only [slotsPerEpoch, slotSeconds, epochSeconds]
    rw [Int.tdiv_eq_ediv_of_nonneg hNonneg, Int.tmod_eq_emod_of_nonneg hNonneg,
      Int.tmod_eq_emod_of_nonneg (Int.ediv_nonneg hNonneg (by decide)),
      Int.tmod_eq_emod_of_nonneg (Int.emod_nonneg _ (by decide)), hWait, hRaw]
    rfl
  obtain ⟨hPos, hLe, hStart⟩ := wait_arith hRaw
  rw [← hWait] at hPos hLe hStart
  have hValue : (BitVec.ofInt 64 wait).toNat = wait.toNat := by
    rw [BitVec.toNat_ofInt, Int.emod_eq_of_lt (by omega) (by omega)]
  refine ⟨_, hSeconds, by omega, by omega, ?_⟩
  -- the wait ends after the genesis, so its end lies in an epoch that is not before the first
  refine ⟨((elapsed + wait - 12 * (target.toNat % 32 : Nat)) / 384).toNat, ?_⟩
  rw [hValue]
  omega

theorem toNat_wholeSeconds (nowMillis : Word64) :
    (nowMillis / 1000).toNat = nowMillis.toNat / 1000 := BitVec.toNat_udiv

theorem wholeSeconds_lt (nowMillis : Word64) : (nowMillis / 1000).toNat < 2 ^ 63 := by
  have hNow := nowMillis.isLt
  rw [toNat_wholeSeconds]
  omega

theorem waitUntil_of_secondsUntil_eq_ok {nowMillis genesis wait : Word64} {target : BitVec 8}
    (h : secondsUntil (nowMillis / 1000) genesis target = .ok wait) :
    waitUntil nowMillis genesis target =
      .ok (.ofMillis (1000 * wait.toNat - nowMillis.toNat % 1000)) := by
  unfold waitUntil
  rw [h]
  refine congrArg Except.ok (congrArg Duration.mk ?_)
  show wait.toNat * 1000000000 - nowMillis.toNat % 1000 * 1000000 =
    (1000 * wait.toNat - nowMillis.toNat % 1000) * 1000000
  omega

theorem waitUntil_of_secondsUntil_eq_error {nowMillis genesis : Word64} {target : BitVec 8}
    {f : Fault} (h : secondsUntil (nowMillis / 1000) genesis target = .error f) :
    waitUntil nowMillis genesis target = .error f := by
  unfold waitUntil
  rw [h]
  rfl

/-- A wait is given unless its end is out of range. -/
theorem waitUntil_eq_error_iff {nowMillis genesis : Word64} {target : BitVec 8} {f : Fault} :
    waitUntil nowMillis genesis target = .error f ↔
      nowMillis.toNat / 1000 < genesis.toNat ∧ f = .addOverflow ∧
        2 ^ 64 ≤ genesis.toNat - nowMillis.toNat / 1000 + 12 * (target.toNat % 32) := by
  have hWhole := toNat_wholeSeconds nowMillis
  by_cases hBefore : nowMillis.toNat / 1000 < genesis.toNat
  · have hSeconds := secondsUntil_of_lt target (hWhole ▸ hBefore)
    rw [hWhole] at hSeconds
    cases hFit : fit 64 Fault.addOverflow
        (genesis.toNat - nowMillis.toNat / 1000 + 12 * (target.toNat % 32)) with
    | error g =>
      obtain ⟨hRange, rfl⟩ := fit_eq_error_iff.mp hFit
      rw [waitUntil_of_secondsUntil_eq_error (hSeconds.trans hFit)]
      constructor
      · intro h
        cases h
        exact ⟨hBefore, rfl, hRange⟩
      · rintro ⟨_, rfl, _⟩
        rfl
    | ok wait =>
      rw [waitUntil_of_secondsUntil_eq_ok (hSeconds.trans hFit)]
      have hRange := fit_eq_ok_iff.mp hFit
      have hWait := wait.isLt
      constructor
      · intro h
        cases h
      · rintro ⟨_, _, hOut⟩
        omega
  · have hAfter : genesis.toNat ≤ (nowMillis / 1000).toNat := by omega
    obtain ⟨wait, hSeconds, _⟩ := secondsUntil_of_le target hAfter (wholeSeconds_lt nowMillis)
    rw [waitUntil_of_secondsUntil_eq_ok hSeconds]
    constructor
    · intro h
      cases h
    · rintro ⟨hBefore', _⟩
      exact absurd hBefore' hBefore

/-- A wait ends at the least start after the present moment. -/
theorem isLeast_of_waitUntil_eq_ok {nowMillis genesis : Word64} {target : BitVec 8} {d : Duration}
    (h : waitUntil nowMillis genesis target = .ok d) :
    ∃ millis, d = .ofMillis millis ∧
      IsLeast (startsAfter nowMillis.toNat genesis.toNat target) (nowMillis.toNat + millis) := by
  have hWhole := toNat_wholeSeconds nowMillis
  cases hSeconds : secondsUntil (nowMillis / 1000) genesis target with
  | error f =>
    rw [waitUntil_of_secondsUntil_eq_error hSeconds] at h
    cases h
  | ok wait =>
    rw [waitUntil_of_secondsUntil_eq_ok hSeconds] at h
    refine ⟨_, (Except.ok.inj h).symm, ?_⟩
    by_cases hBefore : nowMillis.toNat / 1000 < genesis.toNat
    · -- every start is at or after the one of the first epoch
      rw [secondsUntil_of_lt target (hWhole ▸ hBefore), hWhole] at hSeconds
      have hWait := fit_eq_ok_iff.mp hSeconds
      have hFirst : nowMillis.toNat + (1000 * wait.toNat - nowMillis.toNat % 1000) =
          start genesis.toNat target 0 := by
        unfold start
        omega
      rw [hFirst]
      exact isLeast_start_zero (by unfold start; omega)
    · have hAfter : genesis.toNat ≤ (nowMillis / 1000).toNat := by omega
      obtain ⟨seconds, hOk, hPos, hLe, epoch, hEnd⟩ :=
        secondsUntil_of_le target hAfter (wholeSeconds_lt nowMillis)
      obtain rfl := Except.ok.inj (hOk.symm.trans hSeconds)
      rw [hWhole] at hEnd
      refine ⟨⟨by omega, epoch, ?_⟩, ?_⟩
      · unfold start
        omega
      · rintro later ⟨hLater, next, rfl⟩
        unfold start at hLater ⊢
        omega

/-- A wait that is given, and what keeps its arithmetic exact: the part of the running second that
is taken away is not longer than the whole seconds, and the seconds since the genesis are the same
number with a sign as without. -/
structure Wait (nowMillis genesis : Word64) (target : BitVec 8) (millis : Nat) : Prop where
  given : waitUntil nowMillis genesis target = .ok (.ofMillis millis)
  pos : 0 < millis
  /-- The wait ends at a start of the slot, and no other start comes before. -/
  least : IsLeast (startsAfter nowMillis.toNat genesis.toNat target) (nowMillis.toNat + millis)
  unclipped : ∃ seconds, secondsUntil (nowMillis / 1000) genesis target = .ok seconds ∧
    (Duration.ofMillis (nowMillis.toNat % 1000)).nanos ≤ (Duration.ofSecs seconds.toNat).nanos
  sign_kept : genesis.toNat ≤ nowMillis.toNat / 1000 →
    (nowMillis / 1000 - genesis).toInt = (nowMillis / 1000 - genesis).toNat
  le_epoch : genesis.toNat ≤ nowMillis.toNat / 1000 → millis ≤ 384000

theorem wait_of_waitUntil_eq_ok {nowMillis genesis : Word64} {target : BitVec 8} {d : Duration}
    (h : waitUntil nowMillis genesis target = .ok d) :
    ∃ millis, Wait nowMillis genesis target millis := by
  have hWhole := toNat_wholeSeconds nowMillis
  obtain ⟨millis, rfl, hLeast⟩ := isLeast_of_waitUntil_eq_ok h
  have hLater : nowMillis.toNat < nowMillis.toNat + millis := hLeast.1.1
  cases hSeconds : secondsUntil (nowMillis / 1000) genesis target with
  | error f =>
    rw [waitUntil_of_secondsUntil_eq_error hSeconds] at h
    cases h
  | ok seconds =>
    have hMillis : millis * 1000000 =
        (1000 * seconds.toNat - nowMillis.toNat % 1000) * 1000000 :=
      congrArg Duration.nanos
        (Except.ok.inj (h.symm.trans (waitUntil_of_secondsUntil_eq_ok hSeconds)))
    refine ⟨millis, h, by omega, hLeast, ⟨seconds, hSeconds, ?_⟩,
      fun hAfter => ?_, fun hAfter => ?_⟩
    · show nowMillis.toNat % 1000 * 1000000 ≤ seconds.toNat * 1000000000
      omega
    · rw [← hWhole] at hAfter
      rw [toInt_elapsed hAfter (wholeSeconds_lt nowMillis), BitVec.toNat_sub_of_le hAfter]
      omega
    · rw [← hWhole] at hAfter
      obtain ⟨wait, hOk, _, hLe, _⟩ := secondsUntil_of_le target hAfter (wholeSeconds_lt nowMillis)
      obtain rfl := Except.ok.inj (hOk.symm.trans hSeconds)
      omega

/-- There is no wait only if the seconds until the slot's first start leave the range of a word;
any other wait ends at the next start. -/
theorem waitUntil_overflows_or_waits (nowMillis genesis : Word64) (target : BitVec 8) :
    (nowMillis.toNat / 1000 < genesis.toNat ∧
        2 ^ 64 ≤ genesis.toNat - nowMillis.toNat / 1000 + 12 * (target.toNat % 32) ∧
        waitUntil nowMillis genesis target = .error .addOverflow) ∨
      (¬ (nowMillis.toNat / 1000 < genesis.toNat ∧
        2 ^ 64 ≤ genesis.toNat - nowMillis.toNat / 1000 + 12 * (target.toNat % 32)) ∧
        ∃ millis, Wait nowMillis genesis target millis) := by
  cases h : waitUntil nowMillis genesis target with
  | error f =>
    obtain ⟨hBefore, rfl, hOut⟩ := waitUntil_eq_error_iff.mp h
    exact .inl ⟨hBefore, hOut, rfl⟩
  | ok d =>
    refine .inr ⟨?_, wait_of_waitUntil_eq_ok h⟩
    rintro ⟨hBefore, hOut⟩
    rw [waitUntil_eq_error_iff.mpr ⟨hBefore, rfl, hOut⟩] at h
    cases h

/-- In the last millisecond before a start the wait is one millisecond; at the start it is an
epoch. -/
example : waitUntil 135999 100 3 = .ok (.ofMillis 1) ∧
    waitUntil 136000 100 3 = .ok (.ofMillis 384000) := ⟨rfl, rfl⟩

end TxLoad.SlotTime

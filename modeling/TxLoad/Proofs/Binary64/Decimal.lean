import Mathlib.Algebra.GroupWithZero.Nat
import Mathlib.Order.Monotone.Basic
import TxLoad.Binary64.Decimal

/-! # Where the decimal text of a number lies

The numbers that round to a magnitude form an interval around it. The intervals of neighbouring
magnitudes meet in the middle between the two, and the shortest decimal number of a magnitude lies
in its interval: a grid that is eighteen places finer than the number is fine enough to hit it.
-/

namespace TxLoad.Binary64

/-! ## The units of a magnitude -/

/-- How many units a finite magnitude comes to. -/
def unitsOf (magnitude : Nat) : Nat := significand magnitude * 2 ^ shift magnitude

/-- The significand starts again, with twice the shift, at the powers of two from `2 ^ 53` on. -/
theorem shift_succ (magnitude : Nat) :
    shift (magnitude + 1) =
      if (magnitude + 1) % 2 ^ fractionBits = 0 ∧ 2 ^ (fractionBits + 1) ≤ magnitude + 1
      then shift magnitude + 1 else shift magnitude := by
  have hBits : 2 ^ fractionBits = 4503599627370496 := rfl
  have hNext : 2 ^ (fractionBits + 1) = 9007199254740992 := rfl
  unfold shift
  rw [hBits, hNext]
  split <;> omega

/-- The gap to the next magnitude is a unit, shifted. -/
theorem unitsOf_succ (magnitude : Nat) :
    unitsOf (magnitude + 1) = unitsOf magnitude + 2 ^ shift magnitude := by
  have hBits : 2 ^ fractionBits = 4503599627370496 := rfl
  have hNext : 2 ^ (fractionBits + 1) = 9007199254740992 := rfl
  unfold unitsOf significand
  rw [shift_succ, hBits, hNext]
  by_cases hPower : (magnitude + 1) % 4503599627370496 = 0 ∧ 9007199254740992 ≤ magnitude + 1
  · have hFull : magnitude % 4503599627370496 = 4503599627370495 := by omega
    rw [if_pos hPower, if_neg (by omega), if_neg (by omega), hPower.1, hFull, Nat.pow_succ]
    omega
  · have hStep : (if magnitude + 1 < 4503599627370496 then magnitude + 1
          else 4503599627370496 + (magnitude + 1) % 4503599627370496) =
        (if magnitude < 4503599627370496 then magnitude
          else 4503599627370496 + magnitude % 4503599627370496) + 1 := by
      split <;> split <;> omega
    rw [if_neg hPower, hStep, Nat.succ_mul]

theorem unitsOf_strictMono : StrictMono unitsOf := by
  refine strictMono_nat_of_lt_succ fun magnitude => ?_
  rw [unitsOf_succ]
  exact Nat.lt_add_of_pos_right (Nat.two_pow_pos _)

/-! ## The interval of a magnitude -/

/-- Four times the middle between a magnitude and the next one. -/
def middle (magnitude : Nat) : Nat := 2 * (unitsOf magnitude + unitsOf (magnitude + 1))

theorem middle_mono : Monotone middle := by
  intro a b h
  have hOwn := unitsOf_strictMono.monotone h
  have hNext := unitsOf_strictMono.monotone (Nat.add_le_add_right h 1)
  unfold middle
  omega

/-- The interval ends in the middle between the magnitude and the next one. -/
theorem interval_high (magnitude : Nat) :
    (interval magnitude).center + (interval magnitude).above = middle magnitude := by
  show 4 * unitsOf magnitude + 2 * 2 ^ shift magnitude = middle magnitude
  rw [middle, unitsOf_succ]
  omega

/-- The interval begins in the middle between the magnitude before and this one. -/
theorem interval_low (magnitude : Nat) :
    (interval (magnitude + 1)).center - (interval (magnitude + 1)).below = middle magnitude := by
  have hBelow : (interval (magnitude + 1)).below = 2 * 2 ^ shift magnitude := by
    have hShift := shift_succ magnitude
    unfold interval
    dsimp only
    simp only [Bool.and_eq_true, decide_eq_true_eq]
    split
    · rename_i hPower
      rw [hShift, if_pos hPower, Nat.pow_succ, Nat.mul_comm]
    · rename_i hPower
      rw [hShift, if_neg hPower]
  show 4 * unitsOf (magnitude + 1) - _ = _
  rw [hBelow, middle, unitsOf_succ]
  omega

/-! ## Decimal numbers in an interval -/

/-- The decimal number lies in the interval, possibly at an end. -/
structure Interval.Holds (i : Interval) (d : Decimal) : Prop where
  low : (i.center - i.below) * 10 ^ (-d.exponent).toNat ≤
    d.digits * (4 * unitsPerOne * 10 ^ d.exponent.toNat)
  high : d.digits * (4 * unitsPerOne * 10 ^ d.exponent.toNat) ≤
    (i.center + i.above) * 10 ^ (-d.exponent).toNat

theorem Interval.bounds_of_contains {i : Interval} {scale quarters : Nat}
    (h : i.contains scale quarters = true) :
    (i.center - i.below) * scale ≤ quarters ∧ quarters ≤ (i.center + i.above) * scale := by
  unfold contains at h
  dsimp only at h
  split at h <;> simp only [Bool.and_eq_true, decide_eq_true_eq] at h
  · exact h
  · exact ⟨h.1.le, h.2.le⟩

/-- A hit of a grid lies on the grid and in the interval. -/
theorem holds_of_nearestOnGrid? {i : Interval} {exponent : Int} {d : Decimal}
    (h : nearestOnGrid? i exponent = some d) : d.exponent = exponent ∧ i.Holds d := by
  unfold nearestOnGrid? at h
  dsimp only at h
  generalize hLow : i.center * 10 ^ (-exponent).toNat /
    (4 * unitsPerOne * 10 ^ exponent.toNat) = low at h
  generalize hHits : [low, low + 1].filter _ = hits at h
  have hIn : ∀ digits ∈ hits, i.Holds ⟨digits, exponent⟩ := by
    intro digits hMem
    rw [← hHits, List.mem_filter, Bool.and_eq_true] at hMem
    obtain ⟨hAtLeast, hAtMost⟩ := Interval.bounds_of_contains hMem.2.2
    exact ⟨hAtLeast, hAtMost⟩
  match hits with
  | [] => cases h
  | [digits] =>
    cases h
    exact ⟨rfl, hIn digits List.mem_cons_self⟩
  | first :: second :: more =>
    -- both neighbours are hits, as the filter has kept two elements of two
    have hBoth : first :: second :: more = [low, low + 1] := by
      rw [← hHits]
      exact List.filter_sublist.eq_of_length_le (by rw [hHits]; simp)
    rw [← Option.some.inj h]
    refine ⟨rfl, hIn _ ?_⟩
    rw [hBoth]
    split
    · exact List.mem_cons_self
    · exact List.mem_cons_of_mem _ List.mem_cons_self

/-- A grid whose steps are shorter than the upper half of the interval has a hit. -/
theorem exists_nearestOnGrid? {i : Interval} {exponent : Int}
    (h : 4 * unitsPerOne * 10 ^ exponent.toNat < i.above * 10 ^ (-exponent).toNat) :
    ∃ d, nearestOnGrid? i exponent = some d := by
  unfold nearestOnGrid?
  dsimp only
  generalize hStep : 4 * unitsPerOne * 10 ^ exponent.toNat = step at h
  generalize hScale : 10 ^ (-exponent).toNat = scale at h
  have hPos : 0 < step := by
    rw [← hStep]
    exact Nat.mul_pos (Nat.mul_pos (by decide) (Nat.two_pow_pos _)) (Nat.pow_pos (by decide))
  generalize hLow : i.center * scale / step = low
  have hAbove : i.center * scale < (low + 1) * step := by
    rw [← hLow]
    exact Nat.lt_mul_of_div_lt (Nat.lt_succ_self _) hPos
  have hNext : i.contains scale ((low + 1) * step) = true := by
    have hDown : (i.center - i.below) * scale ≤ i.center * scale :=
      Nat.mul_le_mul_right _ (Nat.sub_le _ _)
    have hUp : (low + 1) * step < (i.center + i.above) * scale := by
      have hLe : low * step ≤ i.center * scale := by
        rw [← hLow]
        exact Nat.div_mul_le_self _ _
      rw [Nat.succ_mul, Nat.add_mul]
      omega
    unfold Interval.contains
    dsimp only
    split <;> simp only [Bool.and_eq_true, decide_eq_true_eq]
    · exact ⟨hDown.trans hAbove.le, hUp.le⟩
    · exact ⟨hDown.trans_lt hAbove, hUp⟩
  cases hHits : [low, low + 1].filter _ with
  | nil =>
    have hMem : low + 1 ∈ [low, low + 1].filter
        (fun digits => digits ≠ 0 && i.contains scale (digits * step)) := by
      simp [hNext]
    rw [hHits] at hMem
    cases hMem
  | cons first more => cases more <;> exact ⟨_, rfl⟩

/-- A search that ends with a grid that is fine enough finds a decimal number in the interval. -/
theorem firstOnGrid_spec {i : Interval} {finer : Nat} : ∀ {exponent : Int},
    4 * unitsPerOne * 10 ^ (exponent - finer).toNat <
      i.above * 10 ^ (-(exponent - finer)).toNat →
    i.Holds (firstOnGrid i exponent finer) ∧
      exponent - finer ≤ (firstOnGrid i exponent finer).exponent := by
  induction finer with
  | zero =>
    intro exponent hFine
    rw [Int.natCast_zero, Int.sub_zero] at hFine ⊢
    obtain ⟨d, hHit⟩ := exists_nearestOnGrid? hFine
    obtain ⟨hExponent, hHolds⟩ := holds_of_nearestOnGrid? hHit
    unfold firstOnGrid
    rw [hHit]
    exact ⟨hHolds, hExponent.ge⟩
  | succ finer ih =>
    intro exponent hFine
    unfold firstOnGrid
    cases hHit : nearestOnGrid? i exponent with
    | some d =>
      obtain ⟨hExponent, hHolds⟩ := holds_of_nearestOnGrid? hHit
      refine ⟨hHolds, ?_⟩
      dsimp only
      omega
    | none =>
      have hLast : exponent - (finer + 1 : Nat) = exponent - 1 - finer := by omega
      rw [hLast] at hFine ⊢
      exact ih hFine

/-! ## The first digit -/

theorem length_toDigits_pred {n : Nat} (h : 0 < n) :
    10 ^ ((Nat.toDigits 10 n).length - 1) ≤ n := by
  by_cases hOne : (Nat.toDigits 10 n).length - 1 = 0
  · rw [hOne]
    exact h
  · have hLength := Nat.length_toDigits_le_iff (n := n) (k := (Nat.toDigits 10 n).length - 1)
      (by decide : 1 < 10) (by omega)
    omega

/-- A number is at least the power of ten at its first digit. -/
theorem pow_leadingExponent_le {units : Nat} (h : 0 < units) :
    unitsPerOne * 10 ^ (leadingExponent units).toNat ≤
      units * 10 ^ (-leadingExponent units).toNat := by
  have hOne : unitsPerOne ≤ 10 ^ headroom := by decide +kernel
  have hUnit : 0 < unitsPerOne := Nat.two_pow_pos _
  have hPos : 0 < units * 10 ^ headroom / unitsPerOne :=
    Nat.div_pos (hOne.trans (Nat.le_mul_of_pos_left _ h)) hUnit
  have hDigits := length_toDigits_pred hPos
  have hLength : 0 < (Nat.toDigits 10 (units * 10 ^ headroom / unitsPerOne)).length :=
    Nat.length_toDigits_pos
  unfold leadingExponent
  generalize (Nat.toDigits 10 (units * 10 ^ headroom / unitsPerOne)).length = length
    at hDigits hLength ⊢
  have hScaled : unitsPerOne * 10 ^ (length - 1) ≤ units * 10 ^ headroom := by
    rw [Nat.mul_comm]
    exact (Nat.le_div_iff_mul_le hUnit).mp hDigits
  generalize headroom = room at hScaled ⊢
  by_cases hWhole : room + 1 ≤ length
  · have hUp : ((length : Int) - (room + 1)).toNat = length - (room + 1) := by omega
    have hDown : (-((length : Int) - (room + 1))).toNat = 0 := by omega
    have hSplit : length - 1 = length - (room + 1) + room := by omega
    rw [hUp, hDown, Nat.pow_zero, Nat.mul_one]
    rw [hSplit, Nat.pow_add, ← Nat.mul_assoc] at hScaled
    exact Nat.le_of_mul_le_mul_right hScaled (Nat.pow_pos (by decide))
  · have hUp : ((length : Int) - (room + 1)).toNat = 0 := by omega
    have hDown : (-((length : Int) - (room + 1))).toNat = room + 1 - length := by omega
    have hSplit : 10 ^ room = 10 ^ (room + 1 - length) * 10 ^ (length - 1) := by
      rw [← Nat.pow_add]
      congr 1
      omega
    rw [hUp, hDown, Nat.pow_zero, Nat.mul_one]
    rw [hSplit, ← Nat.mul_assoc] at hScaled
    exact Nat.le_of_mul_le_mul_right hScaled (Nat.pow_pos (by decide))

/-- The first digit of a number stands no lower than any power of ten that the number reaches. -/
theorem le_leadingExponent {units k : Nat} (h : unitsPerOne * 10 ^ k ≤ units) :
    (k : Int) ≤ leadingExponent units := by
  have hUnit : 0 < unitsPerOne := Nat.two_pow_pos _
  have hReached : 10 ^ (k + headroom) ≤ units * 10 ^ headroom / unitsPerOne := by
    rw [Nat.le_div_iff_mul_le hUnit, Nat.pow_add, Nat.mul_right_comm, Nat.mul_comm (10 ^ k)]
    exact Nat.mul_le_mul_right _ h
  have hLength := Nat.length_toDigits_le_iff (n := units * 10 ^ headroom / unitsPerOne)
    (k := k + headroom) (by decide : 1 < 10) (Nat.add_pos_right _ (by decide))
  unfold leadingExponent
  omega

/-! ## The shortest decimal number -/

theorem significand_lt (magnitude : Nat) : significand magnitude < 2 ^ 53 := by
  have hBits : 2 ^ fractionBits = 4503599627370496 := rfl
  unfold significand
  rw [hBits]
  split <;> omega

/-- Seventeen places below the first digit the grid is finer than the interval. -/
theorem fine_of_pos {magnitude : Nat} (h : 0 < unitsOf magnitude) :
    4 * unitsPerOne * 10 ^ (leadingExponent (unitsOf magnitude) - 17).toNat <
      (interval magnitude).above * 10 ^ (-(leadingExponent (unitsOf magnitude) - 17)).toNat := by
  have hFirst := pow_leadingExponent_le h
  have hUnits : unitsOf magnitude < 2 ^ 53 * 2 ^ shift magnitude :=
    Nat.mul_lt_mul_of_pos_right (significand_lt magnitude) (Nat.two_pow_pos _)
  show _ < 2 * 2 ^ shift magnitude * _
  generalize leadingExponent (unitsOf magnitude) = first at hFirst ⊢
  generalize 2 ^ shift magnitude = gap at hUnits ⊢
  generalize unitsOf magnitude = units at hFirst hUnits
  generalize unitsPerOne = one at hFirst ⊢
  have hPlaces : 10 ^ first.toNat * 10 ^ (-(first - 17)).toNat =
      10 ^ 17 * 10 ^ (first - 17).toNat * 10 ^ (-first).toNat := by
    rw [← Nat.pow_add, ← Nat.pow_add, ← Nat.pow_add]
    congr 1
    omega
  have hScale : 0 < 10 ^ (-(first - 17)).toNat := Nat.pow_pos (by decide)
  have hRest : 0 < 10 ^ (-first).toNat := Nat.pow_pos (by decide)
  generalize 10 ^ (-(first - 17)).toNat = scale at hPlaces hScale ⊢
  generalize 10 ^ (first - 17).toNat = step at hPlaces ⊢
  generalize 10 ^ (-first).toNat = rest at hPlaces hFirst hRest
  generalize 10 ^ first.toNat = lead at hPlaces hFirst
  -- what the first digit says of the number, seventeen places further down
  have hDown : one * (10 ^ 17 * step) ≤ units * scale := by
    refine Nat.le_of_mul_le_mul_right ?_ hRest
    calc one * (10 ^ 17 * step) * rest = one * lead * scale := by
          rw [Nat.mul_assoc, ← hPlaces, Nat.mul_assoc]
      _ ≤ units * rest * scale := Nat.mul_le_mul_right _ hFirst
      _ = units * scale * rest := Nat.mul_right_comm _ _ _
  have hGap : units * scale < 2 ^ 53 * gap * scale := Nat.mul_lt_mul_of_pos_right hUnits hScale
  have hOne : one * (10 ^ 17 * step) = 10 ^ 17 * (one * step) := Nat.mul_left_comm _ _ _
  rw [Nat.mul_assoc] at hGap
  rw [Nat.mul_assoc, Nat.mul_assoc]
  generalize one * step = a at hOne ⊢
  generalize gap * scale = b at hGap ⊢
  omega

/-- The shortest decimal number of a magnitude lies in its interval, and no digit of it stands lower
than seventeen places below the first. -/
theorem shortest_spec {magnitude : Nat} (h : 0 < magnitude) :
    (interval magnitude).Holds (shortest magnitude) ∧
      leadingExponent (unitsOf magnitude) - 17 ≤ (shortest magnitude).exponent := by
  have hPos : 0 < unitsOf magnitude :=
    Nat.lt_of_le_of_lt (Nat.zero_le _) (unitsOf_strictMono h)
  have hCenter : (interval magnitude).center / 4 = unitsOf magnitude :=
    Nat.mul_div_cancel_left _ (by decide)
  have hLast : leadingExponent (unitsOf magnitude) + 1 - (18 : Nat) =
      leadingExponent (unitsOf magnitude) - 17 := by omega
  have hFine := fine_of_pos hPos
  rw [← hLast] at hFine ⊢
  unfold shortest
  dsimp only
  rw [hCenter]
  exact firstOnGrid_spec hFine

/-- A decimal number lies below the middle above its magnitude and all larger ones. -/
theorem shortest_le_middle {magnitude bound : Nat} (hPos : 0 < magnitude)
    (hLe : magnitude ≤ bound) :
    (shortest magnitude).digits * (4 * unitsPerOne * 10 ^ (shortest magnitude).exponent.toNat) ≤
      middle bound * 10 ^ (-(shortest magnitude).exponent).toNat := by
  have hHigh := (shortest_spec hPos).1.high
  rw [interval_high] at hHigh
  exact hHigh.trans (Nat.mul_le_mul_right _ (middle_mono hLe))

/-- A decimal number lies above the middle below its magnitude and all smaller ones. -/
theorem middle_le_shortest {magnitude bound : Nat} (hLt : bound < magnitude) :
    middle bound * 10 ^ (-(shortest magnitude).exponent).toNat ≤
      (shortest magnitude).digits *
        (4 * unitsPerOne * 10 ^ (shortest magnitude).exponent.toNat) := by
  have hPos : 0 < magnitude := Nat.zero_lt_of_lt hLt
  have hLow := (shortest_spec hPos).1.low
  obtain ⟨before, rfl⟩ := Nat.exists_eq_add_one_of_ne_zero hPos.ne'
  rw [interval_low] at hLow
  exact (Nat.mul_le_mul_right _ (middle_mono (Nat.le_of_lt_succ hLt))).trans hLow

end TxLoad.Binary64

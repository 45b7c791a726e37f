import Mathlib.Data.List.TakeWhile
import TxLoad.Proofs.Binary64.Decimal
import TxLoad.Proofs.Text.Numeral
import TxLoad.Settings.Units

/-! # Which amounts can be read

An amount is read at its decimal text, which holds the parts of the amount exactly or cut off. The
reading overflows exactly if the amount itself, as opposed to its text, is below `2 ^ 256` whole
units and has `2 ^ 256` parts or more.
-/

namespace TxLoad

/-! ## Runs of digits -/

/-- The first digits of a run count for at most what the whole run does. -/
theorem ofDigitChars_take_le (digits : List Char) (k : Nat) :
    Nat.ofDigitChars 10 (digits.take k) 0 * 10 ^ (digits.length - k) ≤
      Nat.ofDigitChars 10 digits 0 := by
  conv_rhs => rw [← List.take_append_drop k digits]
  rw [Nat.ofDigitChars_append, Nat.ofDigitChars_eq_ofDigitChars_zero (l := digits.drop k),
    List.length_drop, Nat.mul_comm]
  exact Nat.le_add_right _ _

namespace Settings

/-! ## Splitting at the point -/

theorem ne_point_of_isDigit {c : Char} (h : c.isDigit = true) : decide (c ≠ '.') = true := by
  rw [decide_eq_true_eq]
  rintro rfl
  exact absurd h (by decide)

theorem splitPoint_whole {digits : List Char} (h : ∀ c ∈ digits, c.isDigit = true) :
    splitPoint digits = (digits, []) := by
  have hAll : ∀ c ∈ digits, decide (c ≠ '.') = true := fun c hc => ne_point_of_isDigit (h c hc)
  unfold splitPoint
  rw [List.takeWhile_eq_self_iff.mpr hAll, List.dropWhile_eq_nil_iff.mpr hAll]
  rfl

theorem splitPoint_append {whole : List Char} (fraction : List Char)
    (h : ∀ c ∈ whole, c.isDigit = true) :
    splitPoint (whole ++ '.' :: fraction) = (whole, fraction) := by
  have hAll : ∀ c ∈ whole, decide (c ≠ '.') = true := fun c hc => ne_point_of_isDigit (h c hc)
  unfold splitPoint
  rw [List.takeWhile_append_of_pos hAll, List.dropWhile_append_of_pos hAll]
  simp

/-- The parts of a text of digits, which overflow if the digits fit 256 bits and the parts do
not. -/
theorem partsOfText_eq {text whole fraction : List Char}
    (hSplit : splitPoint text = (whole, fraction))
    (hStart : ∀ c rest, text = c :: rest → c.isDigit = true) (hNe : whole ≠ [])
    (hDigits : ∀ c ∈ whole ++ fraction.take unitPlaces, c.isDigit = true) :
    partsOfText text =
      if wordCount 256 ≤ Nat.ofDigitChars 10 (whole ++ fraction.take unitPlaces) 0 then
        .error (.invalid "the number is too large for the type")
      else
        (fit 256 .wideOverflow (Nat.ofDigitChars 10 (whole ++ fraction.take unitPlaces) 0 *
          10 ^ (unitPlaces - (fraction.take unitPlaces).length))).mapError .fault := by
  have hValue := Text.digitsValue?_eq (List.append_ne_nil_of_left_ne_nil hNe _) hDigits
  unfold partsOfText
  split
  · rename_i rest
    exact absurd (hStart '-' rest rfl) (by decide)
  · rw [hSplit]
    dsimp only
    rw [hValue]
    dsimp only
    generalize Nat.ofDigitChars 10 (whole ++ fraction.take unitPlaces) 0 = n
    split
    · rfl
    · rename_i hFits
      have hScale : 10 ^ (unitPlaces - (fraction.take unitPlaces).length) < 2 ^ 256 :=
        Nat.lt_of_le_of_lt (Nat.pow_le_pow_right (by decide) (Nat.sub_le _ _))
          (show 10 ^ 18 < 2 ^ 256 by decide)
      unfold Word256.times
      rw [BitVec.toNat_ofNat, BitVec.toNat_ofNat, Nat.mod_eq_of_lt (Nat.not_le.mp hFits),
        Nat.mod_eq_of_lt hScale]

/-! ## The text of a decimal number -/

/-- The text of a whole number is read as that number. -/
theorem partsOfText_whole {d : Binary64.Decimal} {e : Nat} (h : d.exponent = e) :
    partsOfText d.text.toList =
      if wordCount 256 ≤ d.digits * 10 ^ e then
        .error (.invalid "the number is too large for the type")
      else (fit 256 .wideOverflow (d.digits * 10 ^ e * 10 ^ unitPlaces)).mapError .fault := by
  obtain ⟨digits, exponent⟩ := d
  change exponent = e at h
  subst h
  have hDigits : ∀ c ∈ Nat.toDigits 10 digits ++ List.replicate e '0', c.isDigit = true := by
    intro c hMem
    rcases List.mem_append.mp hMem with hMem | hMem
    · exact Text.isDigit_of_mem_digits c hMem
    · exact Text.isDigit_of_mem_zeros c hMem
  have hValue : Nat.ofDigitChars 10 (Nat.toDigits 10 digits ++ List.replicate e '0') 0 =
      digits * 10 ^ e := by
    rw [Nat.ofDigitChars_append, Nat.ofDigitChars_ten_toDigits, Nat.ofDigitChars_replicate_zero,
      Nat.mul_comm]
  have hText : (Binary64.Decimal.text ⟨digits, e⟩).toList =
      Nat.toDigits 10 digits ++ List.replicate e '0' := String.toList_ofList
  have hRead := partsOfText_eq (splitPoint_whole hDigits)
    (fun c rest hCons => hDigits c (by rw [hCons]; exact List.mem_cons_self))
    (List.append_ne_nil_of_left_ne_nil Nat.toDigits_ne_nil _)
    (by rwa [List.take_nil, List.append_nil])
  rw [List.take_nil, List.append_nil, hValue] at hRead
  rw [hText]
  exact hRead

/-- Cutting digits off does not bring a number with less than `2 ^ 256` parts to more parts. -/
theorem parts_lt_of_cut {n digits places : Nat}
    (h : digits * 10 ^ unitPlaces < 2 ^ 256 * 10 ^ places)
    (hCut : n * 10 ^ (places - unitPlaces) ≤ digits) :
    n * 10 ^ (unitPlaces - min unitPlaces places) < 2 ^ 256 := by
  by_cases hFew : places ≤ unitPlaces
  · rw [Nat.sub_eq_zero_of_le hFew, Nat.pow_zero, Nat.mul_one] at hCut
    have hSplit : 10 ^ unitPlaces = 10 ^ (unitPlaces - places) * 10 ^ places := by
      rw [← Nat.pow_add, Nat.sub_add_cancel hFew]
    rw [hSplit, ← Nat.mul_assoc] at h
    rw [Nat.min_eq_right hFew]
    exact Nat.lt_of_le_of_lt (Nat.mul_le_mul_right _ hCut) (Nat.lt_of_mul_lt_mul_right h)
  · have hMany : unitPlaces ≤ places := by omega
    have hSplit : 10 ^ places = 10 ^ (places - unitPlaces) * 10 ^ unitPlaces := by
      rw [← Nat.pow_add, Nat.sub_add_cancel hMany]
    rw [hSplit, ← Nat.mul_assoc] at h
    rw [Nat.min_eq_left hMany, Nat.sub_self, Nat.pow_zero, Nat.mul_one]
    exact Nat.lt_of_mul_lt_mul_right (Nat.lt_of_le_of_lt hCut (Nat.lt_of_mul_lt_mul_right h))

/-- The text of a number with decimal places has as many digits after its point. -/
theorem exists_point (digits e : Nat) :
    ∃ whole fraction, (Binary64.Decimal.text ⟨digits, .negSucc e⟩).toList =
        whole ++ '.' :: fraction ∧
      whole ≠ [] ∧ fraction.length = e + 1 ∧ (∀ c ∈ whole ++ fraction, c.isDigit = true) ∧
      Nat.ofDigitChars 10 (whole ++ fraction) 0 = digits := by
  generalize hPadded : List.replicate (e + 1 + 1 - (Nat.toDigits 10 digits).length) '0' ++
    Nat.toDigits 10 digits = padded
  have hLength : e + 1 < padded.length := by
    rw [← hPadded, List.length_append, List.length_replicate]
    omega
  refine ⟨padded.take (padded.length - (e + 1)), padded.drop (padded.length - (e + 1)), ?_,
    List.ne_nil_of_length_pos ?_, ?_, ?_, ?_⟩
  · rw [← hPadded]
    exact String.toList_ofList
  · rw [List.length_take]
    omega
  · rw [List.length_drop]
    omega
  · intro c hMem
    rw [List.take_append_drop, ← hPadded] at hMem
    exact Text.isDigit_of_mem_decimal c hMem
  · rw [List.take_append_drop, ← hPadded, Nat.ofDigitChars_append,
      Nat.ofDigitChars_replicate_zero, Nat.mul_zero, Nat.ofDigitChars_ten_toDigits]

/-- The text of a number with less than `2 ^ 256` parts is read. -/
theorem exists_partsOfText {d : Binary64.Decimal}
    (h : d.digits * 10 ^ d.exponent.toNat * 10 ^ unitPlaces <
      2 ^ 256 * 10 ^ (-d.exponent).toNat) :
    ∃ parts, partsOfText d.text.toList = .ok parts := by
  obtain ⟨digits, exponent⟩ := d
  cases exponent with
  | ofNat e =>
    have hNone : (-Int.ofNat e).toNat = 0 := by
      rw [Int.toNat_eq_zero]
      exact Int.neg_nonpos_of_nonneg (Int.natCast_nonneg e)
    change digits * 10 ^ e * 10 ^ unitPlaces < _ at h
    rw [hNone, Nat.pow_zero, Nat.mul_one] at h
    have hLe : digits * 10 ^ e ≤ digits * 10 ^ e * 10 ^ unitPlaces :=
      Nat.le_mul_of_pos_right _ (Nat.pow_pos (by decide))
    rw [partsOfText_whole (e := e) rfl, if_neg (Nat.not_le.mpr (hLe.trans_lt h)), fit, if_pos h]
    exact ⟨_, rfl⟩
  | negSucc e =>
    change digits * 1 * 10 ^ unitPlaces < 2 ^ 256 * 10 ^ (e + 1) at h
    rw [Nat.mul_one] at h
    obtain ⟨whole, fraction, hText, hNe, hPlaces, hDigits, hValue⟩ := exists_point digits e
    have hWhole : ∀ c ∈ whole, c.isDigit = true := fun c hMem =>
      hDigits c (List.mem_append_left _ hMem)
    have hKept : ∀ c ∈ whole ++ fraction.take unitPlaces, c.isDigit = true := by
      intro c hMem
      rcases List.mem_append.mp hMem with hMem | hMem
      · exact hWhole c hMem
      · exact hDigits c (List.mem_append_right _ (List.mem_of_mem_take hMem))
    have hRead := partsOfText_eq (splitPoint_append fraction hWhole)
      (fun c rest hCons => by
        cases whole with
        | nil => exact absurd rfl hNe
        | cons first others =>
          cases hCons
          exact hWhole c List.mem_cons_self) hNe hKept
    have hCut := ofDigitChars_take_le (whole ++ fraction) (whole.length + unitPlaces)
    have hDropped : (whole ++ fraction).length - (whole.length + unitPlaces) =
        e + 1 - unitPlaces := by
      rw [List.length_append]
      omega
    rw [List.take_length_add_append, hValue, hDropped] at hCut
    rw [List.length_take, hPlaces] at hRead
    generalize Nat.ofDigitChars 10 (whole ++ fraction.take unitPlaces) 0 = n at hRead hCut
    have hParts := parts_lt_of_cut h hCut
    have hLe : n ≤ n * 10 ^ (unitPlaces - min unitPlaces (e + 1)) :=
      Nat.le_mul_of_pos_right _ (Nat.pow_pos (by decide))
    rw [hText, hRead, if_neg (Nat.not_le.mpr (hLe.trans_lt hParts)), fit, if_pos hParts]
    exact ⟨_, rfl⟩

/-! ## The amounts that overflow -/

open Binary64

/-- The amount has less than `2 ^ 256` whole units, but `2 ^ 256` parts or more. -/
def Overflows (amount : Binary64) : Prop :=
  (2 ^ 256 * unitsPerOne : Nat) ≤ amount.value * (10 ^ unitPlaces : Nat) ∧
    amount.value < (2 ^ 256 * unitsPerOne : Nat)

instance : DecidablePred Overflows := fun _ => inferInstanceAs (Decidable (_ ∧ _))

/-- The least magnitude of `2 ^ 256` parts. -/
def overflowMagnitude : Nat := 0x4c32725dd1d243ac

/-- The magnitude of `2 ^ 256` whole units. -/
def roofMagnitude : Nat := 0x4ff0000000000000

theorem overflowMagnitude_le_iff {magnitude : Nat} :
    overflowMagnitude ≤ magnitude ↔
      2 ^ 256 * unitsPerOne ≤ unitsOf magnitude * 10 ^ unitPlaces := by
  have hReached : 2 ^ 256 * unitsPerOne ≤ unitsOf overflowMagnitude * 10 ^ unitPlaces := by
    decide +kernel
  have hBefore : unitsOf (overflowMagnitude - 1) * 10 ^ unitPlaces < 2 ^ 256 * unitsPerOne := by
    decide +kernel
  constructor
  · intro h
    exact hReached.trans (Nat.mul_le_mul_right _ (unitsOf_strictMono.monotone h))
  · intro h
    by_contra hBelow
    have hUnits := unitsOf_strictMono.monotone (Nat.le_sub_one_of_lt (Nat.not_le.mp hBelow))
    exact absurd (h.trans (Nat.mul_le_mul_right _ hUnits)) (Nat.not_le.mpr hBefore)

theorem lt_roofMagnitude_iff {magnitude : Nat} :
    magnitude < roofMagnitude ↔ unitsOf magnitude < 2 ^ 256 * unitsPerOne := by
  have hRoof : unitsOf roofMagnitude = 2 ^ 256 * unitsPerOne := by decide +kernel
  rw [← hRoof]
  exact unitsOf_strictMono.lt_iff_lt.symm

/-- Below the first amount of `2 ^ 256` parts the decimal number has less than `2 ^ 256` parts. -/
theorem shortest_lt {magnitude : Nat} (hPos : 0 < magnitude) (h : magnitude < overflowMagnitude) :
    (shortest magnitude).digits * 10 ^ (shortest magnitude).exponent.toNat * 10 ^ unitPlaces <
      2 ^ 256 * 10 ^ (-(shortest magnitude).exponent).toNat := by
  have hMiddle : middle (overflowMagnitude - 1) * 10 ^ unitPlaces <
      2 ^ 256 * (4 * unitsPerOne) := by decide +kernel
  have hHigh := shortest_le_middle hPos (Nat.le_sub_one_of_lt h)
  have hScale : 0 < 10 ^ (-(shortest magnitude).exponent).toNat := Nat.pow_pos (by decide)
  generalize 10 ^ (-(shortest magnitude).exponent).toNat = scale at hHigh hScale ⊢
  generalize 10 ^ (shortest magnitude).exponent.toNat = step at hHigh ⊢
  generalize (shortest magnitude).digits = digits at hHigh ⊢
  generalize 4 * unitsPerOne = quarters at hHigh hMiddle
  refine Nat.lt_of_mul_lt_mul_right (a := quarters) ?_
  calc digits * step * 10 ^ unitPlaces * quarters
      = digits * (quarters * step) * 10 ^ unitPlaces := by
        rw [Nat.mul_right_comm, Nat.mul_assoc digits, Nat.mul_comm step]
    _ ≤ middle (overflowMagnitude - 1) * scale * 10 ^ unitPlaces := Nat.mul_le_mul_right _ hHigh
    _ = middle (overflowMagnitude - 1) * 10 ^ unitPlaces * scale := Nat.mul_right_comm _ _ _
    _ < 2 ^ 256 * quarters * scale := Nat.mul_lt_mul_of_pos_right hMiddle hScale
    _ = 2 ^ 256 * scale * quarters := Nat.mul_right_comm _ _ _

/-- From the first amount of `2 ^ 256` parts on the decimal number is whole. -/
theorem exists_whole {magnitude : Nat} (h : overflowMagnitude ≤ magnitude) :
    ∃ e : Nat, (shortest magnitude).exponent = e := by
  have hFirst : (17 : Nat) ≤ leadingExponent (unitsOf magnitude) := by
    refine le_leadingExponent (k := 17) (Nat.le_trans ?_ (unitsOf_strictMono.monotone h))
    decide +kernel
  have hPos : 0 < magnitude := Nat.lt_of_lt_of_le (by decide) h
  have hLast := (shortest_spec hPos).2
  exact ⟨(shortest magnitude).exponent.toNat, by omega⟩

section Whole

variable {magnitude bound e : Nat} (hWhole : (shortest magnitude).exponent = e)

include hWhole

theorem middle_le_whole (h : bound < magnitude) :
    middle bound ≤ (shortest magnitude).digits * 10 ^ e * (4 * unitsPerOne) := by
  have hScale : (-(e : Int)).toNat = 0 := by omega
  have hLow := middle_le_shortest h
  rw [hWhole, Int.toNat_natCast, hScale, Nat.pow_zero, Nat.mul_one] at hLow
  rwa [Nat.mul_assoc, Nat.mul_comm (10 ^ e)]

theorem whole_le_middle (hPos : 0 < magnitude) (h : magnitude ≤ bound) :
    (shortest magnitude).digits * 10 ^ e * (4 * unitsPerOne) ≤ middle bound := by
  have hScale : (-(e : Int)).toNat = 0 := by omega
  have hHigh := shortest_le_middle hPos h
  rw [hWhole, Int.toNat_natCast, hScale, Nat.pow_zero, Nat.mul_one] at hHigh
  rwa [Nat.mul_assoc, Nat.mul_comm (10 ^ e)]

/-- The first amount of `2 ^ 256` parts is close to the limit, so its text is looked at. -/
theorem parts_le_whole (h : overflowMagnitude ≤ magnitude) :
    2 ^ 256 ≤ (shortest magnitude).digits * 10 ^ e * 10 ^ unitPlaces := by
  rcases h.eq_or_lt with rfl | h
  · have hText : shortest overflowMagnitude = ⟨1157920892373162, 44⟩ := by decide +kernel
    rw [hText] at hWhole ⊢
    obtain rfl : e = 44 := (Int.ofNat.inj hWhole).symm
    decide
  · have hMiddle : 2 ^ 256 * (4 * unitsPerOne) ≤ middle overflowMagnitude * 10 ^ unitPlaces := by
      decide +kernel
    have hUnit : 0 < 4 * unitsPerOne := Nat.mul_pos (by decide) (Nat.two_pow_pos _)
    refine Nat.le_of_mul_le_mul_right (hMiddle.trans ?_) hUnit
    rw [Nat.mul_right_comm]
    exact Nat.mul_le_mul_right _ (middle_le_whole hWhole h)

theorem whole_lt (hPos : 0 < magnitude) (h : magnitude < roofMagnitude) :
    (shortest magnitude).digits * 10 ^ e < 2 ^ 256 := by
  have hMiddle : middle (roofMagnitude - 1) < 2 ^ 256 * (4 * unitsPerOne) := by decide +kernel
  exact Nat.lt_of_mul_lt_mul_right
    ((whole_le_middle hWhole hPos (Nat.le_sub_one_of_lt h)).trans_lt hMiddle)

/-- The interval of `2 ^ 256` begins below that number, so its text is looked at. -/
theorem le_whole (h : roofMagnitude ≤ magnitude) :
    2 ^ 256 ≤ (shortest magnitude).digits * 10 ^ e := by
  rcases h.eq_or_lt with rfl | h
  · have hText : shortest roofMagnitude = ⟨1157920892373162, 62⟩ := by decide +kernel
    rw [hText] at hWhole ⊢
    obtain rfl : e = 62 := (Int.ofNat.inj hWhole).symm
    decide
  · have hMiddle : 2 ^ 256 * (4 * unitsPerOne) ≤ middle roofMagnitude := by decide +kernel
    have hUnit : 0 < 4 * unitsPerOne := Nat.mul_pos (by decide) (Nat.two_pow_pos _)
    exact Nat.le_of_mul_le_mul_right (hMiddle.trans (middle_le_whole hWhole h)) hUnit

end Whole

/-! ## Reading an amount -/

theorem overflows_iff {amount : Binary64} (hSign : amount.negative = false) :
    Overflows amount ↔
      overflowMagnitude ≤ amount.magnitude ∧ amount.magnitude < roofMagnitude := by
  have hValue : amount.value = (unitsOf amount.magnitude : Nat) := by
    unfold Binary64.value
    rw [hSign]
    rfl
  unfold Overflows
  rw [hValue, ← Int.natCast_mul, Int.ofNat_le, Int.ofNat_lt, overflowMagnitude_le_iff,
    lt_roofMagnitude_iff]

/-- An amount below zero or at zero does not overflow. -/
theorem pos_of_overflows {amount : Binary64} (h : Overflows amount) :
    amount.negative = false ∧ 0 < amount.magnitude := by
  have hUnit : 0 < 2 ^ 256 * unitsPerOne := Nat.mul_pos (by decide) (Nat.two_pow_pos _)
  cases hSign : amount.negative with
  | false =>
    have hMagnitude := ((overflows_iff hSign).mp h).1
    exact ⟨rfl, Nat.lt_of_lt_of_le (by decide) hMagnitude⟩
  | true =>
    have hReached := h.1
    unfold Binary64.value at hReached
    rw [hSign, if_pos rfl, Int.neg_mul, ← Int.natCast_mul] at hReached
    omega

theorem isFinite_of_overflows {amount : Binary64} (h : Overflows amount) :
    amount.isFinite = true := by
  have hRoof := ((overflows_iff (pos_of_overflows h).1).mp h).2
  have hInfinite : roofMagnitude ≤ infiniteMagnitude := by decide
  exact decide_eq_true (hRoof.trans_le hInfinite)

theorem isNaN_of_isFinite {amount : Binary64} (h : amount.isFinite = true) :
    amount.isNaN = false :=
  decide_eq_false (Nat.not_lt.mpr (of_decide_eq_true h).le)

/-- The text of a number is a mark for its sign, and a zero or its shortest decimal number. -/
theorem text_of_isFinite {amount : Binary64} (h : amount.isFinite = true) :
    amount.text = (if amount.negative then "-" else "") ++
      if amount.magnitude = 0 then "0" else (shortest amount.magnitude).text := by
  have hInfinite : amount.isInfinite = false := decide_eq_false (of_decide_eq_true h).ne
  unfold Binary64.text
  rw [isNaN_of_isFinite h, hInfinite]
  simp only [Bool.false_eq_true, if_false]
  split <;> rfl

theorem text_of_pos {amount : Binary64} (hFinite : amount.isFinite = true)
    (hSign : amount.negative = false) (hPos : 0 < amount.magnitude) :
    amount.text = (shortest amount.magnitude).text := by
  rw [text_of_isFinite hFinite, hSign, if_neg hPos.ne']
  exact String.empty_append

theorem partsOf_of_overflows {amount : Binary64} (h : Overflows amount) :
    partsOf amount = .error (.fault .wideOverflow) := by
  obtain ⟨hSign, hPos⟩ := pos_of_overflows h
  obtain ⟨hReached, hRoof⟩ := (overflows_iff hSign).mp h
  obtain ⟨e, hWhole⟩ := exists_whole hReached
  have hFits := whole_lt hWhole hPos hRoof
  have hParts := parts_le_whole hWhole hReached
  unfold partsOf
  rw [text_of_pos (isFinite_of_overflows h) hSign hPos, partsOfText_whole hWhole,
    if_neg (Nat.not_le.mpr hFits), fit, if_neg (Nat.not_lt.mpr hParts)]
  rfl

/-- Another amount is read, or there is a cause to refuse it. -/
theorem partsOf_of_not_overflows {amount : Binary64} (hFinite : amount.isFinite = true)
    (hOrder : amount.isBelowZero = false) (h : ¬Overflows amount) :
    (∃ parts, partsOf amount = .ok parts) ∨ ∃ cause, partsOf amount = .error (.invalid cause) := by
  by_cases hZero : amount.magnitude = 0
  · unfold partsOf
    rw [text_of_isFinite hFinite, if_pos hZero]
    -- a negative zero is refused for its sign
    cases amount.negative with
    | false => exact .inl ⟨0, by decide⟩
    | true => exact .inr ⟨_, rfl⟩
  · have hPos : 0 < amount.magnitude := Nat.pos_of_ne_zero hZero
    have hSign : amount.negative = false := by
      unfold isBelowZero at hOrder
      rw [isNaN_of_isFinite hFinite] at hOrder
      simpa [hZero] using hOrder
    unfold partsOf
    rw [text_of_pos hFinite hSign hPos]
    rcases Nat.lt_or_ge amount.magnitude overflowMagnitude with hSmall | hReached
    · exact .inl (exists_partsOfText (shortest_lt hPos hSmall))
    · have hRoof : roofMagnitude ≤ amount.magnitude :=
        Nat.not_lt.mp fun hLt => h ((overflows_iff hSign).mpr ⟨hReached, hLt⟩)
      obtain ⟨e, hWhole⟩ := exists_whole hReached
      rw [partsOfText_whole hWhole, if_pos (le_whole hWhole hRoof)]
      exact .inr ⟨_, rfl⟩

/-- Between two amounts that do not overflow lie eighteen powers of ten that do. -/
example : ¬Overflows (.ofInt (10 ^ 59)) ∧ Overflows (.ofInt (10 ^ 60)) ∧
    Overflows (.ofInt (10 ^ 77)) ∧ ¬Overflows (.ofInt (10 ^ 78)) := by decide +kernel

end Settings

end TxLoad

import TxLoad.Text.Numeral

/-! # Which texts are decimal numbers

A run of digits is zeros in front of the shortest decimal text of its value
(`exists_zeros_append_toDigits`), so a text is read as a number exactly if it is the decimal text of
this number, with zeros or a plus sign in front or not (`unsigned?_eq_some_iff`).
-/

namespace TxLoad.Text

/-- The text is the number in decimal, with zeros and at most one plus sign in front of it. -/
def Decimal (n : Nat) (text : List Char) : Prop :=
  ∃ sign zeros, (sign = [] ∨ sign = ['+']) ∧
    text = sign ++ (List.replicate zeros '0' ++ Nat.toDigits 10 n)

variable {digits : List Char}

/-! ## Runs of digits -/

theorem isDigit_of_mem_digits {n : Nat} : ∀ c ∈ Nat.toDigits 10 n, c.isDigit = true :=
  fun _ => Nat.isDigit_of_mem_toDigits (by decide) (by decide)

theorem isDigit_of_mem_zeros {k : Nat} : ∀ c ∈ List.replicate k '0', c.isDigit = true := by
  intro c hMem
  rw [List.eq_of_mem_replicate hMem]
  decide

theorem isDigit_of_mem_decimal {n zeros : Nat} :
    ∀ c ∈ List.replicate zeros '0' ++ Nat.toDigits 10 n, c.isDigit = true := by
  intro c hMem
  rcases List.mem_append.mp hMem with hMem | hMem
  · exact isDigit_of_mem_zeros c hMem
  · exact isDigit_of_mem_digits c hMem

theorem digitsValue?_eq {digits : List Char} (hNe : digits ≠ [])
    (hDigits : ∀ c ∈ digits, c.isDigit = true) :
    digitsValue? digits = some (Nat.ofDigitChars 10 digits 0) := by
  have hAll : (digits.isEmpty || !digits.all Char.isDigit) = false := by
    rw [List.all_eq_true.mpr hDigits, List.isEmpty_eq_false_iff.mpr hNe]
    rfl
  unfold digitsValue?
  rw [hAll, Nat.ofDigitChars_eq_foldl]
  simp only [Bool.false_eq_true, if_false, Nat.mul_comm]

theorem digitsValue?_eq_some_iff {n : Nat} :
    digitsValue? digits = some n ↔ digits ≠ [] ∧ (∀ c ∈ digits, c.isDigit = true) ∧
      Nat.ofDigitChars 10 digits 0 = n := by
  constructor
  · intro h
    have hRun : digits ≠ [] ∧ ∀ c ∈ digits, c.isDigit = true := by
      unfold digitsValue? at h
      split at h
      · cases h
      · rename_i hRun
        simp only [Bool.or_eq_true, List.isEmpty_iff, Bool.not_eq_true', not_or,
          Bool.not_eq_false, List.all_eq_true] at hRun
        exact hRun
    rw [digitsValue?_eq hRun.1 hRun.2] at h
    exact ⟨hRun.1, hRun.2, Option.some.inj h⟩
  · rintro ⟨hNe, hDigits, rfl⟩
    exact digitsValue?_eq hNe hDigits

theorem exists_digitChar {c : Char} (h : c.isDigit = true) : ∃ d < 10, c = Nat.digitChar d := by
  simp only [Char.isDigit, Bool.and_eq_true, decide_eq_true_eq, ge_iff_le,
    UInt32.le_iff_toNat_le] at h
  have hRange : 48 ≤ c.toNat ∧ c.toNat ≤ 57 := h
  refine ⟨c.toNat - 48, by omega, Char.toNat_inj.mp ?_⟩
  rw [Nat.toNat_digitChar_of_lt_ten (by omega)]
  omega

/-- Digits after a number other than zero go on with its decimal text. -/
theorem toDigits_ofDigitChars {n : Nat} (hPos : 0 < n) (hDigits : ∀ c ∈ digits, c.isDigit = true) :
    Nat.toDigits 10 (Nat.ofDigitChars 10 digits n) = Nat.toDigits 10 n ++ digits := by
  induction digits generalizing n with
  | nil => simp
  | cons c digits ih =>
    obtain ⟨d, hLt, rfl⟩ := exists_digitChar (hDigits c List.mem_cons_self)
    rw [Nat.ofDigitChars_cons_digitChar_of_lt_ten hLt,
      ih (by omega) fun c hMem => hDigits c (List.mem_cons_of_mem _ hMem),
      ← Nat.toDigits_append_toDigits (by decide) hPos hLt, Nat.toDigits_of_lt_base hLt,
      List.append_assoc]
    rfl

/-- A run of digits is zeros in front of the decimal text of its value. -/
theorem exists_zeros_append_toDigits (hNe : digits ≠ [])
    (hDigits : ∀ c ∈ digits, c.isDigit = true) :
    ∃ zeros, digits =
      List.replicate zeros '0' ++ Nat.toDigits 10 (Nat.ofDigitChars 10 digits 0) := by
  induction digits with
  | nil => exact absurd rfl hNe
  | cons c digits ih =>
    have hRest : ∀ c ∈ digits, c.isDigit = true :=
      fun c hMem => hDigits c (List.mem_cons_of_mem _ hMem)
    obtain ⟨d, hLt, rfl⟩ := exists_digitChar (hDigits c List.mem_cons_self)
    rw [Nat.ofDigitChars_cons_digitChar_of_lt_ten hLt, Nat.mul_zero, Nat.zero_add]
    cases d with
    | zero =>
      by_cases hLast : digits = []
      · subst hLast
        exact ⟨0, rfl⟩
      · obtain ⟨zeros, hZeros⟩ := ih hLast hRest
        refine ⟨zeros + 1, ?_⟩
        rw [List.replicate_succ, List.cons_append, ← hZeros]
        rfl
    | succ d =>
      refine ⟨0, ?_⟩
      rw [toDigits_ofDigitChars (Nat.succ_pos d) hRest, Nat.toDigits_of_lt_base hLt]
      rfl

/-! ## Numbers -/

theorem digitsValue?_decimal (zeros n : Nat) :
    digitsValue? (List.replicate zeros '0' ++ Nat.toDigits 10 n) = some n := by
  rw [digitsValue?_eq (List.append_ne_nil_of_right_ne_nil _ Nat.toDigits_ne_nil)
    isDigit_of_mem_decimal, Nat.ofDigitChars_append, Nat.ofDigitChars_replicate_zero, Nat.mul_zero,
    Nat.ofDigitChars_ten_toDigits]

/-- A number below the bound is read in exactly its decimal texts. -/
theorem unsigned?_eq_some_iff {bound n : Nat} {s : String} :
    unsigned? bound s = some n ↔ n < bound ∧ Decimal n s.toList := by
  unfold unsigned?
  simp only [Option.filter_eq_some_iff, decide_eq_true_eq]
  rw [and_comm]
  refine and_congr_right fun _ => ?_
  constructor
  · intro h
    obtain ⟨hNe, hDigits, hValue⟩ := digitsValue?_eq_some_iff.mp h
    obtain ⟨zeros, hZeros⟩ := exists_zeros_append_toDigits hNe hDigits
    rw [hValue] at hZeros
    split at hZeros
    · rename_i rest hPlus
      exact ⟨['+'], zeros, .inr rfl, by rw [hPlus, hZeros]; rfl⟩
    · exact ⟨[], zeros, .inl rfl, hZeros⟩
  · rintro ⟨sign, zeros, rfl | rfl, hText⟩
    · rw [List.nil_append] at hText
      have hPlus : ∀ rest, s.toList ≠ '+' :: rest := by
        intro rest hRest
        have hDigit := isDigit_of_mem_decimal '+' (by rw [← hText, hRest]; exact List.mem_cons_self)
        exact absurd hDigit (by decide)
      split
      · rename_i rest hRest
        exact absurd hRest (hPlus rest)
      · rw [hText]
        exact digitsValue?_decimal zeros n
    · rw [hText]
      exact digitsValue?_decimal zeros n

theorem Decimal.unique {n m : Nat} {text : List Char} (h : Decimal n text) (g : Decimal m text) :
    n = m := by
  have hRead : unsigned? (n + m + 1) (String.ofList text) = some n :=
    unsigned?_eq_some_iff.mpr ⟨by omega, by rwa [String.toList_ofList]⟩
  have hOther : unsigned? (n + m + 1) (String.ofList text) = some m :=
    unsigned?_eq_some_iff.mpr ⟨by omega, by rwa [String.toList_ofList]⟩
  exact Option.some.inj (hRead.symm.trans hOther)

/-- A word is read in exactly the decimal texts of its number. -/
theorem word?_eq_some_iff {width : Nat} {w : BitVec width} {s : String} :
    word? width s = some w ↔ Decimal w.toNat s.toList := by
  unfold word?
  rw [Option.map_eq_some_iff]
  constructor
  · rintro ⟨n, hRead, rfl⟩
    obtain ⟨hLt, hDecimal⟩ := unsigned?_eq_some_iff.mp hRead
    rwa [BitVec.toNat_ofNat, Nat.mod_eq_of_lt hLt]
  · intro hDecimal
    exact ⟨w.toNat, unsigned?_eq_some_iff.mpr ⟨w.isLt, hDecimal⟩, by simp⟩

end TxLoad.Text

import Mathlib.Data.List.TakeWhile
import TxLoad.Json.Reader
import TxLoad.Proofs.Json.Grammar

/-! # Reading strings and numbers

The reader takes just the strings of the grammar (`readPieces_eq_some_iff`), and a string is read as
the text that it stands for (`textOf?_eq_some_iff`). It takes a number of the grammar from a text
that does not go on with it (`Number.readNumeral_eq`), and nothing else (`number_of_readNumeral`).
-/

namespace TxLoad.Json

variable {text start rest : List Char}

/-! ## Space -/

theorem isSpace_iff {c : Char} : isSpace c = true ↔ c ∈ spaces := by
  simp [isSpace, spaces, or_assoc]

theorem space_skipSpace (text : List Char) : Space text (skipSpace text) := by
  refine ⟨text.takeWhile isSpace, ?_, List.takeWhile_append_dropWhile.symm⟩
  intro c hMem
  exact isSpace_iff.mp (List.mem_takeWhile_imp hMem)

theorem Tight.skipSpace_eq (h : Tight text) : skipSpace text = text := by
  cases text with
  | nil => rfl
  | cons c text => exact List.dropWhile_cons_of_neg (mt isSpace_iff.mp (h c text rfl))

theorem Space.skipSpace_eq (h : Space text rest) (hRest : Tight rest) : skipSpace text = rest := by
  obtain ⟨space, hSpace, rfl⟩ := h
  unfold skipSpace
  rw [List.dropWhile_append_of_pos (fun c hMem => isSpace_iff.mpr (hSpace c hMem))]
  exact hRest.skipSpace_eq

/-! ## Strings -/

/-- A reader that goes on from another one reads what that one does. -/
theorem exists_of_bind {α β : Type} {read : Option (α × List Char)} {make : α → β} {result : β}
    (h : (do let (a, rest) ← read; return (make a, rest)) = some (result, rest)) :
    ∃ a, read = some (a, rest) ∧ make a = result := by
  obtain ⟨⟨a, _⟩, hRead, hMake⟩ := Option.bind_eq_some_iff.mp h
  cases hMake
  exact ⟨a, hRead, rfl⟩

theorem toNat_lt_of_hexDigit? {c : Char} {n : Nat} (h : Text.hexDigit? c = some n) :
    c.toNat < 128 := by
  unfold Text.hexDigit? at h
  simp only [Char.isDigit, Bool.and_eq_true, decide_eq_true_eq, Char.le_def,
    UInt32.le_iff_toNat_le] at h
  change c.val.toNat < 128
  split at h
  · rename_i hDigit
    exact Nat.lt_of_le_of_lt hDigit.2 (by decide)
  · split at h
    · rename_i hSmall
      exact Nat.lt_of_le_of_lt hSmall.2 (by decide)
    · split at h
      · rename_i hCapital
        exact Nat.lt_of_le_of_lt hCapital.2 (by decide)
      · cases h

theorem hexDigit?_eq_some_iff {c : Char} {n : Nat} :
    Text.hexDigit? c = some n ↔ IsHexDigit c n := by
  constructor
  · intro h
    have hAll : ∀ m < 128, ∀ d ∈ Text.hexDigit? (Char.ofNat m), IsHexDigit (Char.ofNat m) d := by
      decide
    have hChar := hAll c.toNat (toNat_lt_of_hexDigit? h) n
    rw [Char.ofNat_toNat] at hChar
    exact hChar h
  · intro h
    have hLt := isHexDigit_lt h
    rcases h with h | h
    · have hChar : Text.hexDigit n = c := by
        rw [Text.hexDigit, List.getD_eq_getElem?_getD, h]
        rfl
      rw [← hChar]
      exact Text.hexDigit?_hexDigit hLt
    · have hAll : ∀ m : Fin 16,
          Text.hexDigit? ("0123456789ABCDEF".toList.getD m '0') = some m.val := by decide
      have hChar := hAll ⟨n, hLt⟩
      rwa [List.getD_eq_getElem?_getD, h] at hChar

theorem unitOf?_eq_some_iff {a b c d : Char} {unit : Nat} :
    unitOf? a b c d = some unit ↔ ∃ i j k l, IsHexDigit a i ∧ IsHexDigit b j ∧ IsHexDigit c k ∧
      IsHexDigit d l ∧ unit = ((i * 16 + j) * 16 + k) * 16 + l := by
  simp only [unitOf?, ← hexDigit?_eq_some_iff, Option.bind_eq_bind, Option.bind_eq_some_iff,
    Option.pure_def, Option.some.injEq]
  grind

theorem shortEscape?_eq_some_iff {mark c : Char} :
    shortEscape? mark = some c ↔ (mark, c) ∈ shortEscapes := by
  unfold shortEscape?
  constructor
  · intro h
    split at h
    · rename_i hSelf
      cases h
      simp only [Bool.or_eq_true, decide_eq_true_eq] at hSelf
      rcases hSelf with (rfl | rfl) | rfl <;> decide
    · repeat' split at h
      all_goals cases h
      all_goals subst_vars; decide
  · intro h
    simp only [shortEscapes, List.mem_cons, Prod.mk.injEq, List.not_mem_nil, or_false] at h
    rcases h with ⟨rfl, rfl⟩ | ⟨rfl, rfl⟩ | ⟨rfl, rfl⟩ | ⟨rfl, rfl⟩ | ⟨rfl, rfl⟩ | ⟨rfl, rfl⟩ |
      ⟨rfl, rfl⟩ | ⟨rfl, rfl⟩ <;> decide

theorem ne_unit_of_mem {mark c : Char} (h : (mark, c) ∈ shortEscapes) : mark ≠ 'u' := by
  rintro rfl
  simp [shortEscapes] at h

/-- The reader takes just the strings of the grammar. -/
theorem readPieces_eq_some_iff {pieces : List Piece} :
    readPieces text = some (pieces, rest) ↔ Spelling text pieces rest := by
  constructor
  · intro h
    fun_induction readPieces text generalizing pieces with
    | case1 => cases h
    | case2 =>
      cases h
      exact .close
    | case3 a b c d text ih =>
      obtain ⟨unit, hUnit, h⟩ := Option.bind_eq_some_iff.mp h
      obtain ⟨more, hMore, rfl⟩ := exists_of_bind h
      obtain ⟨i, j, k, l, ha, hb, hc, hd, rfl⟩ := unitOf?_eq_some_iff.mp hUnit
      exact .unit ha hb hc hd (ih hMore)
    | case4 mark text hNotUnit ih =>
      -- a `u` with less than four characters after it comes here too, and is no short escape
      obtain ⟨c, hEscape, h⟩ := Option.bind_eq_some_iff.mp h
      obtain ⟨more, hMore, rfl⟩ := exists_of_bind h
      exact .escape (shortEscape?_eq_some_iff.mp hEscape) (ih hMore)
    | case5 => cases h
    | case6 c text hQuote hUnit hEscape hPlain ih =>
      obtain ⟨more, hMore, rfl⟩ := exists_of_bind h
      simp only [Bool.or_eq_true, decide_eq_true_eq, not_or, Nat.not_lt] at hPlain
      exact .literal hPlain.1 hQuote hPlain.2 (ih hMore)
  · intro h
    induction h with
    | close => rfl
    | literal hPlain hQuote hSlash h ih =>
      simp [readPieces, ih, hSlash, Nat.not_lt.mpr hPlain]
    | escape hEscape h ih =>
      simp [readPieces, ih, shortEscape?_eq_some_iff.mpr hEscape, ne_unit_of_mem hEscape]
    | unit ha hb hc hd h ih =>
      unfold readPieces
      simp only [unitOf?_eq_some_iff.mpr ⟨_, _, _, _, ha, hb, hc, hd, rfl⟩, ih]
      rfl

/-! ## The text of a string -/

theorem isHighSurrogate_iff {n : Nat} :
    isHighSurrogate n = true ↔ 0xD800 ≤ n ∧ n ≤ 0xDBFF := by
  simp [isHighSurrogate]

theorem isLowSurrogate_iff {n : Nat} :
    isLowSurrogate n = true ↔ 0xDC00 ≤ n ∧ n ≤ 0xDFFF := by
  simp [isLowSurrogate]

theorem textOf?_unit {n : Nat} (hHigh : ¬ (0xD800 ≤ n ∧ n ≤ 0xDBFF))
    (hLow : ¬ (0xDC00 ≤ n ∧ n ≤ 0xDFFF)) (pieces : List Piece) :
    textOf? (.unit n :: pieces) = (Char.ofNat n :: ·) <$> textOf? pieces := by
  have hHigh := Bool.eq_false_iff.mpr (mt isHighSurrogate_iff.mp hHigh)
  have hLow := Bool.eq_false_iff.mpr (mt isLowSurrogate_iff.mp hLow)
  rcases pieces with _ | ⟨_ | _ | _, pieces⟩ <;> simp [textOf?, hHigh, hLow]

/-- A string is read as the text that it stands for. -/
theorem textOf?_eq_some_iff {pieces : List Piece} :
    textOf? pieces = some text ↔ StandsFor pieces text := by
  constructor
  · intro h
    fun_induction textOf? pieces generalizing text with
    | case1 =>
      cases h
      exact .nil
    | case2 c pieces ih =>
      obtain ⟨text, hText, rfl⟩ := Option.map_eq_some_iff.mp h
      exact .literal (ih hText)
    | case3 c pieces ih =>
      obtain ⟨text, hText, rfl⟩ := Option.map_eq_some_iff.mp h
      exact .escape (ih hText)
    | case4 high low pieces hPair ih =>
      obtain ⟨text, hText, rfl⟩ := Option.map_eq_some_iff.mp h
      rw [Bool.and_eq_true, isHighSurrogate_iff, isLowSurrogate_iff] at hPair
      exact .pair hPair.1 hPair.2 (ih hText)
    | case5 => cases h
    | case6 n low pieces hPair hSingle ih =>
      obtain ⟨text, hText, rfl⟩ := Option.map_eq_some_iff.mp h
      rw [Bool.or_eq_true, isHighSurrogate_iff, isLowSurrogate_iff, not_or] at hSingle
      exact .unit hSingle.1 hSingle.2 (ih hText)
    | case7 => cases h
    | case8 n pieces hLast hSingle ih =>
      obtain ⟨text, hText, rfl⟩ := Option.map_eq_some_iff.mp h
      rw [Bool.or_eq_true, isHighSurrogate_iff, isLowSurrogate_iff, not_or] at hSingle
      exact .unit hSingle.1 hSingle.2 (ih hText)
  · intro h
    induction h with
    | nil => rfl
    | literal _ ih | escape _ ih =>
      rw [textOf?, ih]
      rfl
    | unit hHigh hLow _ ih =>
      rw [textOf?_unit hHigh hLow, ih]
      rfl
    | pair hHigh hLow _ ih =>
      rw [textOf?, isHighSurrogate_iff.mpr hHigh, isLowSurrogate_iff.mpr hLow, ih]
      rfl

theorem StandsFor.unique {pieces : List Piece} {other : List Char} (h : StandsFor pieces text)
    (g : StandsFor pieces other) : text = other :=
  Option.some.inj ((textOf?_eq_some_iff.mpr h).symm.trans (textOf?_eq_some_iff.mpr g))

/-! ## Numbers -/

variable {digits whole fraction : List Char} {exponent : Option (Bool × List Char)}
  {numeral : Numeral}

theorem digits_of_readDigits (h : readDigits text = some (digits, rest)) :
    Digits text digits rest := by
  unfold readDigits at h
  split at h
  · cases h
  · rename_i hNe
    cases h
    refine ⟨hNe, fun c hMem => List.mem_takeWhile_imp hMem, ?_⟩
    exact List.takeWhile_append_dropWhile.symm

theorem Digits.readDigits_eq (h : Digits text digits rest) (hRest : NoDigit rest) :
    readDigits text = some (digits, rest) := by
  obtain ⟨hNe, hDigits, rfl⟩ := h
  have hTake : rest.takeWhile Char.isDigit = [] := by
    cases rest with
    | nil => rfl
    | cons c rest => simp [hRest c rest rfl]
  have hDrop : rest.dropWhile Char.isDigit = rest := by
    cases rest with
    | nil => rfl
    | cons c rest => simp [hRest c rest rfl]
  unfold readDigits
  rw [List.takeWhile_append_of_pos hDigits, List.dropWhile_append_of_pos hDigits, hTake, hDrop,
    List.append_nil]
  cases digits with
  | nil => exact absurd rfl hNe
  | cons c digits => rfl

theorem readWhole_eq_some_iff :
    readWhole text = some (digits, rest) ↔
      readDigits text = some (digits, rest) ∧ ∀ others, digits = '0' :: others → others = [] := by
  unfold readWhole
  split
  · rename_i first others rest' hRead
    constructor
    · intro h
      cases h
    · rintro ⟨hOther, hZero⟩
      cases hRead.symm.trans hOther
      cases hZero _ rfl
  · rename_i hZero
    constructor
    · intro h
      refine ⟨h, ?_⟩
      rintro (_ | ⟨c, others⟩) rfl
      · rfl
      · exact absurd h (hZero c others rest)
    · exact And.left

theorem fraction_of_readFraction (h : readFraction text = some (digits, rest)) :
    Fraction text digits rest := by
  unfold readFraction at h
  split at h
  · exact .present (digits_of_readDigits h)
  · cases h
    exact .absent

theorem Fraction.readFraction_eq (h : Fraction text digits rest) (hRest : NoDigit rest)
    (hPoint : ∀ more, rest ≠ '.' :: more) : readFraction text = some (digits, rest) := by
  cases h with
  | absent =>
    unfold readFraction
    split
    · exact absurd rfl (hPoint _)
    · rfl
  | present h => exact h.readDigits_eq hRest

theorem sign_readSign (text : List Char) : Sign text (readSign text).1 (readSign text).2 := by
  unfold readSign
  split
  · exact .minus
  · exact .plus
  · exact .absent

theorem Sign.readSign_eq {negative : Bool} (h : Sign text negative start)
    (hStart : Digits start digits rest) : readSign text = (negative, start) := by
  cases h with
  | absent =>
    obtain ⟨c, more, rfl, hDigit⟩ := hStart.head
    unfold readSign
    split
    · rename_i hChars
      cases hChars
      cases hDigit
    · rename_i hChars
      cases hChars
      cases hDigit
    · rfl
  | plus => rfl
  | minus => rfl

theorem exponent_of_readExponent (h : readExponent text = some (exponent, rest)) :
    Exponent text exponent rest := by
  unfold readExponent at h
  split at h
  · cases h
    exact .absent
  · rename_i mark text
    split at h
    · rename_i hMark
      simp only [Bool.or_eq_true, decide_eq_true_eq] at hMark
      simp only [Option.bind_eq_bind, Option.bind_eq_some_iff, Option.pure_def, Option.some.injEq,
        Prod.mk.injEq, Prod.exists] at h
      obtain ⟨digits, rest', hDigits, rfl, rfl⟩ := h
      exact .present hMark (sign_readSign text) (digits_of_readDigits hDigits)
    · cases h
      exact .absent

theorem Exponent.readExponent_eq (h : Exponent text exponent rest) (hRest : Stops rest) :
    readExponent text = some (exponent, rest) := by
  cases h with
  | absent =>
    unfold readExponent
    split
    · rfl
    · rename_i c more
      obtain ⟨_, _, hSmall, hCapital⟩ := hRest c more rfl
      simp [hSmall, hCapital]
  | present hMark hSign h =>
    unfold readExponent
    simp only [hSign.readSign_eq h, h.readDigits_eq hRest.noDigit]
    rcases hMark with rfl | rfl <;> rfl

theorem number_of_readNumeral (h : readNumeral text = some (numeral, rest)) :
    Number text numeral rest := by
  unfold readNumeral at h
  split at h
  rename_i negative start hStart
  have hMinus : Minus text negative start := by
    split at hStart
    · cases hStart
      exact .present
    · cases hStart
      exact .absent
  obtain ⟨⟨whole, point⟩, hWhole, h⟩ := Option.bind_eq_some_iff.mp h
  obtain ⟨⟨fraction, mark⟩, hFraction, h⟩ := Option.bind_eq_some_iff.mp h
  obtain ⟨exponent, hExponent, rfl⟩ := exists_of_bind h
  obtain ⟨hDigits, hZero⟩ := readWhole_eq_some_iff.mp hWhole
  exact .parts hMinus ⟨digits_of_readDigits hDigits, hZero⟩ (fraction_of_readFraction hFraction)
    (exponent_of_readExponent hExponent)

/-- A number is read to its end in a text that does not go on with it. -/
theorem Number.readNumeral_eq (h : Number text numeral rest) (hRest : Stops rest) :
    readNumeral text = some (numeral, rest) := by
  cases h with
  | parts hMinus hWhole hFraction hExponent =>
    obtain ⟨hMark, hPoint⟩ := hExponent.head hRest
    have hReadWhole := readWhole_eq_some_iff.mpr
      ⟨hWhole.1.readDigits_eq (hFraction.noDigit hMark), hWhole.2⟩
    have hReadFraction := hFraction.readFraction_eq hMark hPoint
    have hReadExponent := hExponent.readExponent_eq hRest
    cases hMinus with
    | absent =>
      obtain ⟨c, more, rfl, hDigit⟩ := hWhole.1.head
      unfold readNumeral
      split
      rename_i hStart
      split at hStart
      · rename_i hText
        cases hText
        cases hDigit
      · cases hStart
        simp [hReadWhole, hReadFraction, hReadExponent]
    | present => simp [readNumeral, hReadWhole, hReadFraction, hReadExponent]

end TxLoad.Json

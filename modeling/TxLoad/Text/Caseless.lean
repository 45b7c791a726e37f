/-! # Searching text without regard to case

Phrases of small ASCII letters and spaces are sought. Besides the capital letters of ASCII, two
characters have an ASCII letter in their lower case: the Kelvin sign, and the capital I with a dot,
whose lower case is `i` and a combining dot. Every other character is either its own lower case or
has one outside ASCII, so it cannot take part in a phrase.
-/

namespace TxLoad.Text

def lowerChar (c : Char) : List Char :=
  if c = '\u212a' then ['k']
  else if c = '\u0130' then ['i', '\u0307']
  else [c.toLower]

def lower (text : List Char) : List Char := text.flatMap lowerChar

/-- The phrase occurs in the text. -/
def occurs (phrase : List Char) : List Char → Bool
  | [] => phrase.isEmpty
  | c :: rest => phrase.isPrefixOf (c :: rest) || occurs phrase rest

/-- The phrase, in small letters, occurs in the text in letters of any case. -/
def mentions (text phrase : String) : Bool := occurs phrase.toList (lower text.toList)

theorem occurs_iff {phrase text : List Char} :
    occurs phrase text = true ↔ ∃ before after, text = before ++ phrase ++ after := by
  induction text with
  | nil =>
    constructor
    · intro h
      have hNil : phrase = [] := List.isEmpty_iff.1 h
      exact ⟨[], [], by rw [hNil]; rfl⟩
    · rintro ⟨before, after, h⟩
      have hNil : phrase = [] := by simp_all
      rw [hNil]
      rfl
  | cons c rest ih =>
    simp only [occurs, Bool.or_eq_true, List.isPrefixOf_iff_prefix, ih]
    constructor
    · rintro (⟨after, h⟩ | ⟨before, after, h⟩)
      · exact ⟨[], after, by simp [h]⟩
      · exact ⟨c :: before, after, by simp [h]⟩
    · rintro ⟨before, after, h⟩
      cases before with
      | nil => exact Or.inl ⟨after, by simpa using h.symm⟩
      | cons d before =>
        refine Or.inr ⟨before, after, ?_⟩
        simp only [List.cons_append, List.cons.injEq] at h
        exact h.2

end TxLoad.Text

import Mathlib.Data.List.Forall2
import TxLoad.Rejection

/-! # Which kind a rejection is of

A text holds a phrase if the characters of the phrase stand in it one after the other, each in
either case. A rejection is of the first kind of which its text holds a phrase, wherever the phrase
stands: `kind_told_by_first_phrase` says so of the text itself and not of its small letters. The end
of a longer word counts too. So the kind is told by a whole phrase only if the text holds one of the
phrases of this kind with nothing before it that belongs to the same word, and a text about an
unknown transaction is of the kind of known ones.
-/

namespace TxLoad

namespace Text

/-- The characters of the phrase, each in either case. -/
def SameLetters (found phrase : List Char) : Prop :=
  List.Forall₂ (fun c p => lowerChar c = [p]) found phrase

/-- The phrase stands in the text right after `before`, in letters of any case. -/
def OccursAfter (before : List Char) (phrase text : String) : Prop :=
  ∃ found after, text.toList = before ++ (found ++ after) ∧ SameLetters found phrase.toList

/-- The phrase stands somewhere in the text. -/
def Occurs (phrase text : String) : Prop := ∃ before, OccursAfter before phrase text

/-- The phrase stands somewhere in the text with no character right before it that would make it the
end of a longer word. -/
def OccursApart (inWord : Char → Prop) (phrase text : String) : Prop :=
  ∃ before, OccursAfter before phrase text ∧ ∀ c, before.getLast? = some c → ¬ inWord c

/-! ## Small letters -/

theorem lower_append (left right : List Char) : lower (left ++ right) = lower left ++ lower right :=
  List.flatMap_append

theorem lower_cons (c : Char) (text : List Char) : lower (c :: text) = lowerChar c ++ lower text :=
  List.flatMap_cons

/-- The capital I with a dot is the only character whose lower case has more than one. -/
theorem lowerChar_cases (c : Char) :
    (∃ p, lowerChar c = [p]) ∨ lowerChar c = ['i', '\u0307'] := by
  unfold lowerChar
  split
  · exact .inl ⟨_, rfl⟩
  · split
    · exact .inr rfl
    · exact .inl ⟨_, rfl⟩

theorem SameLetters.lower_eq {found phrase : List Char} (h : SameLetters found phrase) :
    lower found = phrase := by
  induction h with
  | nil => rfl
  | cons hChar _ ih => rw [lower_cons, hChar, ih]; rfl

/-- A cut of the small letters that does not fall into the lower case of one character comes from a
cut of the text. -/
theorem exists_of_lower_eq_append {text before rest : List Char}
    (h : lower text = before ++ rest) (hRest : rest.head? ≠ some '\u0307') :
    ∃ left right, text = left ++ right ∧ lower left = before ∧ lower right = rest := by
  induction text generalizing before with
  | nil =>
    obtain ⟨rfl, rfl⟩ := List.append_eq_nil_iff.mp h.symm
    exact ⟨[], [], rfl, rfl, rfl⟩
  | cons c text ih =>
    cases before with
    | nil => exact ⟨[], c :: text, rfl, rfl, h⟩
    | cons b before =>
      rw [lower_cons] at h
      rcases lowerChar_cases c with ⟨p, hChar⟩ | hChar
      · simp only [hChar, List.cons_append, List.nil_append, List.cons.injEq] at h
        obtain ⟨rfl, h⟩ := h
        obtain ⟨left, right, rfl, rfl, hRight⟩ := ih h
        exact ⟨c :: left, right, rfl, by rw [lower_cons, hChar]; rfl, hRight⟩
      · simp only [hChar, List.cons_append, List.nil_append, List.cons.injEq] at h
        obtain ⟨rfl, h⟩ := h
        cases before with
        | nil =>
          rw [← show '\u0307' :: lower text = rest from h] at hRest
          exact absurd rfl hRest
        | cons dot before =>
          simp only [List.cons_append, List.cons.injEq] at h
          obtain ⟨rfl, h⟩ := h
          obtain ⟨left, right, rfl, rfl, hRight⟩ := ih h
          exact ⟨c :: left, right, rfl, by rw [lower_cons, hChar]; rfl, hRight⟩

/-- No part of the phrase can be part of the lower case of a character only. -/
def Sought (phrase : List Char) : Prop := '\u0307' ∉ phrase ∧ phrase.getLast? ≠ some 'i'

/-- A phrase at the front of the small letters stands at the front of the text. -/
theorem exists_sameLetters {text phrase after : List Char} (hPhrase : Sought phrase)
    (h : lower text = phrase ++ after) :
    ∃ found rest, text = found ++ rest ∧ SameLetters found phrase := by
  induction phrase generalizing text with
  | nil => exact ⟨[], text, rfl, .nil⟩
  | cons p phrase ih =>
    obtain ⟨hDot, hLast⟩ := hPhrase
    cases text with
    | nil => cases h
    | cons c text =>
      rw [lower_cons] at h
      rcases lowerChar_cases c with ⟨q, hChar⟩ | hChar
      · simp only [hChar, List.cons_append, List.nil_append, List.cons.injEq] at h
        obtain ⟨rfl, h⟩ := h
        have hRest : Sought phrase := by
          refine ⟨fun hMem => hDot (List.mem_cons_of_mem _ hMem), ?_⟩
          intro hEnd
          apply hLast
          rw [List.getLast?_cons, hEnd]
          rfl
        obtain ⟨found, rest, rfl, hSame⟩ := ih hRest h
        exact ⟨c :: found, rest, rfl, .cons hChar hSame⟩
      · simp only [hChar, List.cons_append, List.nil_append, List.cons.injEq] at h
        obtain ⟨rfl, h⟩ := h
        -- the phrase would end with the `i`, or go on with the dot
        cases phrase with
        | nil => exact absurd rfl hLast
        | cons dot phrase =>
          obtain ⟨rfl, _⟩ := List.cons.inj h
          simp at hDot

/-- A phrase is mentioned if it stands somewhere in the text. -/
theorem mentions_iff {text phrase : String} (hPhrase : Sought phrase.toList)
    (hSome : phrase.toList ≠ []) : mentions text phrase = true ↔ Occurs phrase text := by
  unfold mentions
  rw [occurs_iff]
  constructor
  · rintro ⟨before, after, h⟩
    rw [List.append_assoc] at h
    have hHead : (phrase.toList ++ after).head? ≠ some '\u0307' := by
      obtain ⟨hDot, _⟩ := hPhrase
      cases hChars : phrase.toList with
      | nil => exact absurd hChars hSome
      | cons p rest =>
        rw [hChars] at hDot
        intro hFirst
        exact hDot (by simp_all)
    obtain ⟨left, right, hText, _, hRight⟩ := exists_of_lower_eq_append h hHead
    obtain ⟨found, rest, rfl, hSame⟩ := exists_sameLetters hPhrase hRight
    exact ⟨left, found, rest, hText, hSame⟩
  · rintro ⟨before, found, after, hText, hSame⟩
    refine ⟨lower before, lower after, ?_⟩
    rw [hText, lower_append, lower_append, hSame.lower_eq, List.append_assoc]

/-- Where a phrase stands apart, the characters from there on are those of the phrase. -/
theorem OccursApart.exists_place {inWord : Char → Prop} {phrase text : String}
    (h : OccursApart inWord phrase text) :
    ∃ place ≤ text.toList.length,
      lower ((text.toList.drop place).take phrase.toList.length) = phrase.toList ∧
      ∀ c, (text.toList.take place).getLast? = some c → ¬ inWord c := by
  obtain ⟨before, ⟨found, after, hText, hSame⟩, hApart⟩ := h
  have hLength : found.length = phrase.toList.length := List.Forall₂.length_eq hSame
  refine ⟨before.length, by simp [hText], ?_, ?_⟩
  · rw [hText, List.drop_left, ← hLength, List.take_left]
    exact hSame.lower_eq
  · rw [hText, List.take_left]
    exact hApart

end Text

namespace Rejection

namespace Kind

/-- One of the phrases of the kind occurs, and none of an earlier kind. -/
def PointedTo (occurs : String → Prop) (kind : Kind) : Prop :=
  (∃ phrase ∈ kind.phrases, occurs phrase) ∧
    ∃ earlier later, all = earlier ++ kind :: later ∧
      ∀ other ∈ earlier, ∀ phrase ∈ other.phrases, ¬ occurs phrase

/-- No phrase of any kind occurs. -/
def Silent (occurs : String → Prop) : Prop :=
  ∀ kind : Kind, ∀ phrase ∈ kind.phrases, ¬ occurs phrase

variable {occurs : String → Prop} {kind other : Kind}

theorem mem_all (kind : Kind) : kind ∈ all := by cases kind <;> decide

theorem sought_of_mem_phrases : ∀ kind : Kind, ∀ phrase ∈ kind.phrases,
    Text.Sought phrase.toList ∧ phrase.toList ≠ [] := by
  intro kind
  cases kind <;> simp [phrases, Text.Sought]

theorem mentions_phrase_iff {phrase text : String} (h : phrase ∈ kind.phrases) :
    Text.mentions text phrase = true ↔ Text.Occurs phrase text :=
  Text.mentions_iff (sought_of_mem_phrases kind phrase h).1 (sought_of_mem_phrases kind phrase h).2

theorem any_mentions_iff (text : String) (kind : Kind) :
    kind.phrases.any (Text.mentions text) = true ↔
      ∃ phrase ∈ kind.phrases, Text.Occurs phrase text := by
  rw [List.any_eq_true]
  constructor
  · rintro ⟨phrase, hMem, hMentions⟩
    exact ⟨phrase, hMem, (mentions_phrase_iff hMem).mp hMentions⟩
  · rintro ⟨phrase, hMem, hOccurs⟩
    exact ⟨phrase, hMem, (mentions_phrase_iff hMem).mpr hOccurs⟩

/-- A kind that is pointed to does not stand after another one that is. -/
theorem PointedTo.not_mem_earlier (h : kind.PointedTo occurs) {earlier : List Kind}
    (hEarlier : ∀ other ∈ earlier, ∀ phrase ∈ other.phrases, ¬ occurs phrase) :
    kind ∉ earlier := by
  intro hMem
  obtain ⟨⟨phrase, hPhrase, hOccurs⟩, _⟩ := h
  exact hEarlier kind hMem phrase hPhrase hOccurs

theorem PointedTo.unique (h : kind.PointedTo occurs) (g : other.PointedTo occurs) :
    kind = other := by
  obtain ⟨_, before, after, hAll, hBefore⟩ := id h
  obtain ⟨_, before', after', hAll', hBefore'⟩ := id g
  rcases List.append_eq_append_iff.mp (hAll.symm.trans hAll') with
    ⟨between, hSplit, hRest⟩ | ⟨between, hSplit, hRest⟩
  · cases between with
    | nil => exact (List.cons.inj hRest).1
    | cons first between =>
      obtain ⟨rfl, _⟩ := List.cons.inj hRest
      exact absurd (by simp [hSplit]) (h.not_mem_earlier hBefore')
  · cases between with
    | nil => exact (List.cons.inj hRest).1.symm
    | cons first between =>
      obtain ⟨rfl, _⟩ := List.cons.inj hRest
      exact absurd (by simp [hSplit]) (g.not_mem_earlier hBefore)

theorem PointedTo.not_silent (h : kind.PointedTo occurs) : ¬ Silent occurs := by
  intro hSilent
  obtain ⟨⟨phrase, hPhrase, hOccurs⟩, _⟩ := h
  exact hSilent kind phrase hPhrase hOccurs

/-- A text is of the first kind of which it holds a phrase. -/
theorem ofText_eq_iff (text : String) (kind : Kind) :
    ofText text = kind ↔
      kind.PointedTo (Text.Occurs · text) ∨ kind = rpc ∧ Silent (Text.Occurs · text) := by
  unfold ofText
  cases hFind : all.find? fun kind => kind.phrases.any (Text.mentions text) with
  | none =>
    have hSilent : Silent (Text.Occurs · text) := by
      intro other phrase hPhrase hOccurs
      refine List.find?_eq_none.mp hFind other (mem_all other) ?_
      exact (any_mentions_iff text other).mpr ⟨phrase, hPhrase, hOccurs⟩
    constructor
    · rintro rfl
      exact .inr ⟨rfl, hSilent⟩
    · rintro (hPointed | ⟨rfl, _⟩)
      · exact absurd hSilent hPointed.not_silent
      · rfl
  | some found =>
    obtain ⟨hFound, earlier, later, hAll, hEarlier⟩ := List.find?_eq_some_iff_append.mp hFind
    have hPointed : found.PointedTo (Text.Occurs · text) := by
      refine ⟨(any_mentions_iff text found).mp hFound, earlier, later, hAll, ?_⟩
      intro other hMem phrase hPhrase hOccurs
      have hAny := (any_mentions_iff text other).mpr ⟨phrase, hPhrase, hOccurs⟩
      simpa [hAny] using hEarlier other hMem
    constructor
    · rintro rfl
      exact .inl hPointed
    · rintro (hOther | ⟨_, hSilent⟩)
      · exact hPointed.unique hOther
      · exact absurd hSilent hPointed.not_silent

end Kind

/-- A rejection is of the first kind of which its text holds a phrase. This kind is told by a whole
phrase exactly if one of its own phrases stands apart somewhere in the text, whichever characters
belong to words. -/
theorem kind_told_by_first_phrase (failure : Failure) :
    (∀ kind, (ofFailure failure).kind = kind ↔
      kind.PointedTo (Text.Occurs · (reason failure)) ∨
        kind = .rpc ∧ Kind.Silent (Text.Occurs · (reason failure))) ∧
    ∀ inWord : Char → Prop,
      ((ofFailure failure).kind ≠ .rpc →
          (ofFailure failure).kind.PointedTo (Text.OccursApart inWord · (reason failure))) ↔
        (ofFailure failure).kind = .rpc ∨ ∃ phrase ∈ (ofFailure failure).kind.phrases,
          Text.OccursApart inWord phrase (reason failure) := by
  have hKind := Kind.ofText_eq_iff (reason failure)
  refine ⟨hKind, fun inWord => ?_⟩
  constructor
  · intro h
    by_cases hRpc : (ofFailure failure).kind = .rpc
    · exact .inl hRpc
    · exact .inr (h hRpc).1
  · rintro (hRpc | hApart) hNotRpc
    · exact absurd hRpc hNotRpc
    · rcases (hKind _).mp rfl with ⟨_, earlier, later, hAll, hEarlier⟩ | ⟨hRpc, _⟩
      · refine ⟨hApart, earlier, later, hAll, ?_⟩
        rintro other hMem phrase hPhrase ⟨before, hOccurs, _⟩
        exact hEarlier other hMem phrase hPhrase ⟨before, hOccurs⟩
      · exact absurd hRpc hNotRpc

/-- The phrase of a known transaction is the end of that of an unknown one. -/
theorem unknown_transaction_taken_for_known :
    ¬ ∀ failure : Failure, (ofFailure failure).kind ≠ .rpc →
      (ofFailure failure).kind.PointedTo
        (Text.OccursApart (fun c => c.isAlphanum = true) · (reason failure)) := by
  intro h
  obtain ⟨⟨phrase, hPhrase, hApart⟩, _⟩ :=
    h (.call ⟨"eth_sendRawTransaction", "unknown transaction"⟩) (by decide)
  obtain ⟨place, hPlace, hFound, hBefore⟩ := hApart.exists_place
  have hKnown : (ofFailure (.call ⟨"eth_sendRawTransaction", "unknown transaction"⟩)).kind.phrases =
      ["already known", "known transaction"] := by decide
  rw [hKnown] at hPhrase
  have hText : (reason (.call ⟨"eth_sendRawTransaction", "unknown transaction"⟩)).toList =
      "unknown transaction".toList := rfl
  rw [hText] at hPlace hFound hBefore
  -- the second phrase stands right after `un` only, the first one nowhere
  have hAfterN : ∀ n ≤ "unknown transaction".toList.length,
      ∀ phrase ∈ ["already known", "known transaction"],
      Text.lower (("unknown transaction".toList.drop n).take phrase.toList.length) =
          phrase.toList →
        ("unknown transaction".toList.take n).getLast? = some 'n' := by decide
  exact hBefore 'n' (hAfterN place hPlace phrase hPhrase hFound) (by decide)

end Rejection

end TxLoad
